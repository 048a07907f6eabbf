/-
  TaintFlow.Yaml.Token
  ────────────────────
  The tokens of a YAML text.

  Brackets, marks and scalars are tokens, and so are the starts and ends of the blocks that only
  the indentation shows.  A key shows itself by the colon behind it: at every place where a key
  could start the scan remembers the number of tokens (`Candidate`), and when the colon comes the
  mark of the key, and perhaps that of a new block, is put in at that place.
-/
import TaintFlow.Number.Numeral
import TaintFlow.Text.Utf8
import TaintFlow.Yaml.Text

namespace TaintFlow.Yaml

/-! ## §1. The types. -/

/-- A line in front of a document that tells how to read it. -/
inductive Directive where
  | version (major : Nat)
  | tagHandle (handle uri : String)
  | other
  deriving DecidableEq, Repr

/-- A token. -/
inductive Token where
  | directive (d : Directive)
  | documentStart
  | documentEnd
  | blockSequence
  | blockMapping
  | blockEnd
  | listOpen
  | listClose
  | mapOpen
  | mapClose
  | entry
  | comma
  | key
  | value
  | alias (name : String)
  | anchor (name : String)
  | tag (handle : Option String) (suffix : String)
  | scalar (text : String) (isPlain : Bool)
  deriving DecidableEq, Repr

/-- A place where a key may have started.  It is `required` where a block must go on with one. -/
structure Candidate where
  position : Nat
  required : Bool
  index : Nat
  line : Nat
  column : Nat
  deriving DecidableEq, Repr

/-- The state of a scan.  `tokens` has the newest token first; `candidates` has one place for
every open bracket, the innermost first, and one for the blocks outside; `indent` is the
column of the innermost block, which is -1 outside of all, and `outer` has those around it. -/
structure Scan where
  cursor : Cursor
  tokens : List Token := []
  candidates : List (Option Candidate) := [none]
  indent : Int := -1
  outer : List Int := []
  keyAllowed : Bool := true

namespace Scan

/-- Does the scan stand between brackets? -/
def inFlow (s : Scan) : Bool := 1 < s.candidates.length

/-! ## §2. Blocks and candidates. -/

/-- Add a token. -/
def emit (s : Scan) (t : Token) : Scan := { s with tokens := t :: s.tokens }

/-- Add a token of some characters. -/
def emitOver (s : Scan) (t : Token) (width : Nat) : Scan :=
  { s.emit t with cursor := s.cursor.advance width }

/-- Put a token in at a position that has been passed. -/
def insertAt (s : Scan) (position : Nat) (t : Token) : Scan :=
  let passed := s.tokens.length - position
  { s with tokens := s.tokens.take passed ++ t :: s.tokens.drop passed }

/-- End the blocks that are indented further than `column`.  Brackets hold them open. -/
def closeBlocks (s : Scan) (column : Int) : Scan :=
  if s.inFlow then s else go s.indent s.outer s.tokens
where
  go (indent : Int) : List Int → List Token → Scan
    | [], tokens => { s with indent := indent, outer := [], tokens := tokens }
    | next :: outer, tokens =>
      if indent > column then go next outer (.blockEnd :: tokens)
      else { s with indent := indent, outer := next :: outer, tokens := tokens }

/-- Start a block at a column if it lies further to the right than the innermost one; the answer
tells whether it does. -/
def openBlock (s : Scan) (column : Nat) : Scan × Bool :=
  if s.indent < column then ({ s with indent := column, outer := s.indent :: s.outer }, true)
  else (s, false)

/-- Forget the candidate between the innermost brackets, unless a key is required there. -/
def dropCandidate (s : Scan) : Read Scan :=
  match s.candidates with
  | some k :: rest => do
    require !k.required
    return { s with candidates := none :: rest }
  | _ => return s

/-- Remember this place as one where a key may start. -/
def addCandidate (s : Scan) : Read Scan :=
  if s.keyAllowed then do
    let s ← s.dropCandidate
    let k : Candidate :=
      ⟨s.tokens.length, !s.inFlow && s.indent == s.cursor.column, s.cursor.index, s.cursor.line, s.cursor.column⟩
    return { s with candidates := some k :: s.candidates.tail }
  else return s

/-- The greatest length of a key in characters. -/
def keyLengthLimit : Nat := 1024

/-- Forget the candidates that are too far back: a key and its colon share a line. -/
def dropStale (s : Scan) : Read Scan := do
  let isStale (k : Candidate) : Bool := k.line ≠ s.cursor.line || s.cursor.index - k.index > keyLengthLimit
  require !(s.candidates.any fun k? => k?.any fun k => isStale k && k.required)
  return { s with candidates := s.candidates.map fun k? => k?.filter fun k => !isStale k }

/-- Forbid keys until a place comes that allows them again. -/
def forbidKey (s : Scan) : Scan := { s with keyAllowed := false }

/-! ## §3. Blanks and comments. -/

/-- Go to the next token.  A line break allows a key outside of brackets. -/
def skipGap (s : Scan) : Scan :=
  let c := s.cursor
  go c.bound
    { s with cursor := if c.index == 0 && c.peek == byteOrderMark then c.next else c }
where
  go : (bound : Nat) → Scan → Scan
    | 0, s => s
    | bound + 1, s =>
      let c := (s.cursor.skip (· == ' ')).skipComment
      if isBreak c.peek then
        go bound { s with cursor := c.takeBreak.2, keyAllowed := s.keyAllowed || !s.inFlow }
      else { s with cursor := c }

/-! ## §4. Directives, names and tags. -/

/-- Read a name. -/
def name (c : Cursor) : Read (String × Cursor) := do
  let chars := c.ahead isNameChar
  c.expect !chars.isEmpty
  return (String.ofList chars, c.advance chars.length)

/-- Read a number. -/
def number (c : Cursor) : Read (Nat × Cursor) := do
  let digits := c.ahead Char.isDigit
  c.expect !digits.isEmpty
  if Numeral.maxDigits < digits.length then throw (.value .numeral)
  return (Numeral.decimalNumber digits, c.advance digits.length)

/-- Does a space, a line break or the end stand here? -/
def atSpace (c : Cursor) : Bool := c.peek == ' ' || isBreakOrEnd c.peek

/-- The characters of a tag besides percent signs. -/
def isTagChar (c : Char) : Bool :=
  c.isAlphanum || "-;/?:@&=+$,_.!~*\x27()[]".toList.contains c

/-- Read bytes that are written as a percent sign and two digits in base sixteen. -/
def percentBytes : List Char → Read (List UInt8)
  | '%' :: a :: b :: rest =>
    match Text.hexNumber? [a, b] with
    | some n => do return UInt8.ofNat n :: (← percentBytes rest)
    | none => refuse
  | '%' :: rest => .error (if rest.all fun c => (Text.hexValue? c).isSome then .unfinished else .malformed)
  | _ => return []

/-- Read the characters of a tag. -/
def tagText (c : Cursor) : Read (String × Cursor) := do
  let (chars, c) ← go c.bound [] c
  c.expect !chars.isEmpty
  return (String.ofList chars, c)
where
  go : (bound : Nat) → List Char → Cursor → Read (List Char × Cursor)
    | 0, done, c => return (done, c)
    | bound + 1, done, c =>
      let chars := c.ahead isTagChar
      let c := c.advance chars.length
      if c.peek == '%' then do
        let bytes ← percentBytes c.rest
        match Text.utf8? bytes with
        | some decoded => go bound (done ++ chars ++ decoded) (c.advance (3 * bytes.length))
        | none => refuse
      else return (done ++ chars, c)

/-- Read the handle of a tag: an exclamation mark alone in front of a space, or a name between
two of them. -/
def tagHandle (c : Cursor) : Read (String × Cursor) := do
  c.expect (c.peek == '!')
  if c.peekAt 1 == ' ' then return ("!", c.next)
  let chars := c.next.ahead isNameChar
  (c.advance (1 + chars.length)).expect (c.peekAt (1 + chars.length) == '!')
  return (String.ofList ('!' :: chars ++ ['!']), c.advance (chars.length + 2))

/-- Read a tag: its handle, if it has one, and the rest of it. -/
def tag (c : Cursor) : Read (Token × Cursor) := do
  let (token, c) ←
    if c.peekAt 1 == '<' then do
      let (uri, c) ← tagText (c.advance 2)
      c.expect (c.peek == '>')
      pure (Token.tag none uri, c.next)
    else if isSeparator (c.peekAt 1) then pure (Token.tag none "!", c.next)
    else do
      let written := c.next.ahead fun x => !(x == ' ' || isBreak x)
      let (handle, c) ← if written.contains '!' then tagHandle c else pure ("!", c.next)
      let (suffix, c) ← tagText c
      pure (Token.tag (some handle) suffix, c)
  require (atSpace c)
  return (token, c)

/-- Read a directive behind its percent sign, to the end of its line. -/
def directive (c : Cursor) : Read (Directive × Cursor) := do
  let (word, c) ← name c
  require (atSpace c)
  let (d, c) ← match word with
    | "YAML" => do
      let (major, c) ← number (c.skip (· == ' '))
      c.expect (c.peek == '.')
      let (_, c) ← number c.next
      require (atSpace c)
      pure (Directive.version major, c)
    | "TAG" => do
      let (handle, c) ← tagHandle (c.skip (· == ' '))
      c.expect (c.peek == ' ')
      let (uri, c) ← tagText (c.skip (· == ' '))
      require (atSpace c)
      pure (Directive.tagHandle handle uri, c)
    | _ => pure (Directive.other, c.skip fun x => !isBreak x)
  let c := (c.skip (· == ' ')).skipComment
  require (isBreakOrEnd c.peek)
  return (d, if c.atEnd then c else c.takeBreak.2)

/-! ## §5. One token. -/

/-- The characters that may follow the name of an anchor or an alias. -/
def endsName (c : Char) : Bool := isSeparator c || "?:,]\x7d%@`".toList.contains c

/-- A mark between documents. -/
def documentMark (s : Scan) (t : Token) : Read Scan := do
  let s ← (s.closeBlocks (-1)).dropCandidate
  return s.forbidKey.emitOver t 3

/-- An opening bracket. -/
def openBracket (s : Scan) (t : Token) : Read Scan := do
  let s ← s.addCandidate
  return { s with candidates := none :: s.candidates, keyAllowed := true }.emitOver t 1

/-- A closing bracket. -/
def closeBracket (s : Scan) (t : Token) : Read Scan := do
  require s.inFlow
  let s ← s.dropCandidate
  return { s with candidates := s.candidates.tail, keyAllowed := false }.emitOver t 1

/-- The comma between entries. -/
def comma (s : Scan) : Read Scan := do
  let s ← s.dropCandidate
  return { s with keyAllowed := true }.emitOver .comma 1

/-- A mark that may start a block here. -/
def openingMark (s : Scan) (start : Token) : Read Scan :=
  if s.inFlow then return s
  else do
    require s.keyAllowed
    let (s, opened) := s.openBlock s.cursor.column
    return if opened then s.emit start else s

/-- The hyphen of an entry. -/
def entry (s : Scan) : Read Scan := do
  let s ← (← s.openingMark .blockSequence).dropCandidate
  return { s with keyAllowed := true }.emitOver .entry 1

/-- The question mark of a key. -/
def key (s : Scan) : Read Scan := do
  let s ← (← s.openingMark .blockMapping).dropCandidate
  return { s with keyAllowed := !s.inFlow }.emitOver .key 1

/-- The colon in front of a value.  It makes the candidate a key, if there is one. -/
def value (s : Scan) : Read Scan :=
  match s.candidates with
  | some k :: rest =>
    let s := { s with candidates := none :: rest }
    let s := s.insertAt k.position .key
    let s :=
      if s.inFlow then s
      else
        let (s, opened) := s.openBlock k.column
        if opened then s.insertAt k.position .blockMapping else s
    return s.forbidKey.emitOver .value 1
  | _ => do
    let s ← s.openingMark .blockMapping
    return { s with keyAllowed := !s.inFlow }.emitOver .value 1

/-- The name of an anchor or an alias. -/
def named (s : Scan) (t : String → Token) : Read Scan := do
  let s ← s.addCandidate
  let (n, c) ← name s.cursor.next
  require (endsName c.peek)
  return { (s.forbidKey.emit (t n)) with cursor := c }

/-- A quoted text. -/
def quotedText (s : Scan) (quote : Char) : Read Scan := do
  let s ← s.addCandidate
  let (text, c) ← quoted quote s.cursor.next
  return { (s.forbidKey.emit (.scalar text false)) with cursor := c }

/-- A block of lines. -/
def blockText (s : Scan) (folded : Bool) : Read Scan := do
  let s ← s.dropCandidate
  let (text, c) ← block folded s.indent s.cursor.next
  return { s.emit (.scalar text false) with cursor := c, keyAllowed := true }

/-- The characters that cannot start plain text. -/
def isIndicator (c : Char) : Bool :=
  isSeparator c || "-?:,[]\x7b\x7d#&*!|>\x27\"%@`".toList.contains c

/-- Can plain text start here? -/
def atPlain (s : Scan) : Bool :=
  let c := s.cursor.peek
  !isIndicator c ||
    (!isSeparator (s.cursor.peekAt 1) && (c == '-' || (!s.inFlow && (c == '?' || c == ':'))))

/-- Plain text. -/
def plainText (s : Scan) : Read Scan := do
  let s ← s.addCandidate
  let (text, lineEnded, c) := plain s.inFlow (s.indent + 1).toNat s.cursor
  return { s.emit (.scalar text true) with cursor := c, keyAllowed := lineEnded }

/-- Read the token that starts here. -/
def step (s : Scan) : Read Scan :=
  let c := s.cursor
  let x := c.peek
  let marked := s.inFlow || isSeparator (c.peekAt 1)
  if c.column == 0 && x == '%' then do
    let s ← (s.closeBlocks (-1)).dropCandidate
    let (d, c) ← directive c.next
    return { (s.forbidKey.emit (.directive d)) with cursor := c }
  else if c.column == 0 && c.atDocumentMark then
    s.documentMark (if x == '-' then .documentStart else .documentEnd)
  else match x with
    | '[' => s.openBracket .listOpen
    | '\x7b' => s.openBracket .mapOpen
    | ']' => s.closeBracket .listClose
    | '\x7d' => s.closeBracket .mapClose
    | ',' => s.comma
    | '*' => s.named .alias
    | '&' => s.named .anchor
    | '!' => do
      let s ← s.addCandidate
      let (t, c) ← tag s.cursor
      return { (s.forbidKey.emit t) with cursor := c }
    | '\x27' => s.quotedText x
    | '"' => s.quotedText x
    | _ =>
      if x == '-' && isSeparator (c.peekAt 1) then s.entry
      else if x == '?' && marked then s.key
      else if x == ':' && marked then s.value
      else if x == '|' && !s.inFlow then s.blockText false
      else if x == '>' && !s.inFlow then s.blockText true
      else if s.atPlain then s.plainText
      else refuse

end Scan

/-! ## §6. The whole text. -/

/-- The characters of a document as far as they can be read, and what is met behind them if that is not
the end. -/
structure Source where
  text : List Char
  beyond : Option Error := none

/-- Tokens, and what is met where more of them are asked for if that is not the end. -/
structure Tokens where
  ready : List Token
  fault : Option Error := none

/-- The tokens of a scan that nothing can change any more: no key can be put in front of them. -/
def Scan.ready (s : Scan) : List Token :=
  let s := s.dropStale.toOption.getD s
  let positions := s.candidates.filterMap fun k? => k?.map (·.position)
  s.tokens.reverse.take (positions.foldr min s.tokens.length)

/-- Go on to the next token; there is none at the end of the text. -/
def Scan.fetch (s : Scan) : Read (Scan × Bool) := do
  let s ← s.skipGap.dropStale
  let s := s.closeBlocks s.cursor.column
  if s.cursor.atEnd then
    let s ← (s.closeBlocks (-1)).dropCandidate
    return (s, true)
  else return (← s.step, false)

/-- The tokens of a document.  A fault comes behind the tokens that were ready before it was met. -/
def Token.scan (source : Source) : Tokens :=
  if source.text.all isAllowed then go (source.text.length + 1) { cursor := Cursor.start source.text }
  else ⟨[], some .malformed⟩
where
  go : (bound : Nat) → Scan → Tokens
    | 0, s => ⟨s.ready, some .malformed⟩
    | bound + 1, s =>
      match source.beyond, s.fetch with
      | none, .ok (next, ended) => if ended then ⟨next.tokens.reverse, none⟩ else go bound next
      | none, .error e => ⟨s.ready, some e⟩
      | some e, fetched =>
        if s.dropStale.isOk && s.skipGap.cursor.atEnd then ⟨s.ready, some e⟩
        else
          match fetched with
          | .ok (next, _) => if next.cursor.atEnd then ⟨s.ready, some e⟩ else go bound next
          | .error .unfinished => ⟨s.ready, some e⟩
          | .error e => ⟨s.ready, some e⟩

end TaintFlow.Yaml
