/-
  TaintFlow.Yaml.Text
  ───────────────────
  The texts of scalars: plain ones, quoted ones and blocks of lines.

  In the first two kinds a single line break counts as a space, and of several the first is
  left out (`fold`).  A block keeps its lines (`|`) or folds them (`>`), and its header says what
  becomes of the breaks at its end.  Every loop has a bound that the length of the text gives.
-/
import TaintFlow.Text.Hex
import TaintFlow.Yaml.Cursor

namespace TaintFlow.Yaml

/-! ## §1. Line breaks between words. -/

/-- The breaks of the empty lines ahead and the place behind them.  A document mark at the
start of a line ends the search without an answer. -/
def emptyLines (blank : Char → Bool) : (bound : Nat) → Cursor → Option (List Char) × Cursor
  | 0, c => (some [], c)
  | bound + 1, c =>
    if c.atDocumentMark then (none, c)
    else
      let c := c.skip blank
      if isBreak c.peek then
        let (b, c) := c.takeBreak
        let (more, c) := emptyLines blank bound c
        (more.map (b :: ·), c)
      else (some [], c)

/-- What a line break and the breaks of the empty lines behind it leave in the text. -/
def fold (first : Char) (empty : List Char) : List Char :=
  if first ≠ '\n' then first :: empty else if empty.isEmpty then [' '] else empty

/-! ## §2. Plain text. -/

/-- The characters that end plain text inside brackets. -/
def isFlowMark (c : Char) : Bool := c == ',' || c == '[' || c == ']' || c == '\x7b' || c == '\x7d'

/-- The word at the start of the characters.  A colon ends it only where a value may follow. -/
def word (inFlow : Bool) : List Char → List Char
  | [] => []
  | c :: rest =>
    let after := rest.headD endMark
    if isSeparator c || (c == ':' && (isSeparator after || (inFlow && isFlowMark after))) ||
        (inFlow && (isFlowMark c || c == '?')) then []
    else c :: word inFlow rest

/-- What stands between two words: the text it leaves, whether a line ends in it, and the place
behind it.  Nothing is left when a document mark follows. -/
def gap (c : Cursor) : List Char × Bool × Cursor :=
  let spaces := c.ahead (· == ' ')
  let c := c.advance spaces.length
  if isBreak c.peek then
    let (first, c) := c.takeBreak
    match emptyLines (· == ' ') c.bound c with
    | (some empty, c) => (fold first empty, true, c)
    | (none, c) => ([], true, c)
  else (spaces, false, c)

/-- Read plain text that goes on to the right of `indent`.  The answer tells whether it ended
with a line, which is where another key may start.  What is `done` has the newest character first. -/
def plain (inFlow : Bool) (indent : Nat) (c : Cursor) : String × Bool × Cursor :=
  go c.bound [] [] false c
where
  go : (bound : Nat) → (done between : List Char) → Bool → Cursor → String × Bool × Cursor
    | 0, done, _, lineEnded, c => (String.ofList done.reverse, lineEnded, c)
    | bound + 1, done, between, lineEnded, c =>
      match word inFlow c.rest with
      | [] => (String.ofList done.reverse, lineEnded, c)
      | w =>
        let done := w.reverse ++ (between.reverse ++ done)
        let (between, lineEnded, c) := gap (c.advance w.length)
        if between.isEmpty || c.peek == '#' || (!inFlow && c.column < indent) then
          (String.ofList done.reverse, lineEnded, c)
        else go bound done between lineEnded c

/-! ## §3. Quoted text. -/

/-- The character that a one-letter escape stands for. -/
def escaped? : Char → Option Char
  | '0' => some '\x00'
  | 'a' => some '\x07'
  | 'b' => some '\x08'
  | 't' => some '\t'
  | '\t' => some '\t'
  | 'n' => some '\n'
  | 'v' => some '\x0b'
  | 'f' => some '\x0c'
  | 'r' => some '\r'
  | 'e' => some '\x1b'
  | ' ' => some ' '
  | '"' => some '"'
  | '\\' => some '\\'
  | '/' => some '/'
  | 'N' => some '\x85'
  | '_' => some '\xa0'
  | 'L' => some '\u2028'
  | 'P' => some '\u2029'
  | _ => none

/-- The number of digits behind the letter of a numeric escape. -/
def escapeWidth? : Char → Option Nat
  | 'x' => some 2
  | 'u' => some 4
  | 'U' => some 8
  | _ => none

/-- Read an escape behind its backslash: the characters it stands for and the place behind it. A
line break behind the backslash joins the lines. -/
def escape (c : Cursor) : Read (List Char × Cursor) :=
  match escaped? c.peek, escapeWidth? c.peek with
  | some x, _ => .ok ([x], c.next)
  | none, some width =>
    let digits := c.next.rest.take width
    match Text.hexNumber? digits with
    | some n =>
      if digits.length < width then .error .unfinished
      else if 0x7FFFFFFF < n then .error (.value .characterNumberTooGreat)
      else if 0x10FFFF < n then .error (.value .characterNumber)
      else .ok ([Text.charOfCode n], c.next.advance width)
    | none => refuse
  | none, none =>
    if isBreak c.peek then
      let c := c.takeBreak.2
      match emptyLines isBlank c.bound c with
      | (some empty, c) => .ok (empty, c)
      | (none, _) => refuse
    else .error (if c.atEnd then .unfinished else .malformed)

/-- The blanks and line breaks at a place inside quotes: what they leave, and the place behind
them.  The text must go on in the same document. -/
def quotedGap (c : Cursor) : Read (List Char × Cursor) :=
  let blanks := c.ahead isBlank
  let c := c.advance blanks.length
  if c.atEnd then .error .unfinished
  else if isBreak c.peek then
    let (first, c) := c.takeBreak
    match emptyLines isBlank c.bound c with
    | (some empty, c) => .ok (fold first empty, c)
    | (none, _) => refuse
  else .ok (blanks, c)

/-- Read text behind its opening quote, up to and with the closing one.  Between single quotes two
of them stand for one, between double quotes a backslash starts an escape. -/
def quoted (quote : Char) (c : Cursor) : Read (String × Cursor) := go c.bound [] c
where
  go : (bound : Nat) → (done : List Char) → Cursor → Read (String × Cursor)
    | 0, _, _ => refuse
    | bound + 1, done, c =>
      let x := c.peek
      if x == quote then
        if quote == '\x27' && c.peekAt 1 == quote then go bound (quote :: done) (c.advance 2)
        else .ok (String.ofList done.reverse, c.next)
      else if isSeparator x then do
        let (between, c) ← quotedGap c
        go bound (between.reverse ++ done) c
      else if x == '\\' && quote == '"' then do
        let (chars, c) ← escape c.next
        go bound (chars.reverse ++ done) c
      else go bound (x :: done) c.next

/-! ## §4. Blocks of lines. -/

/-- What becomes of the line breaks at the end of a block. -/
inductive Chomping where
  | strip
  | clip
  | keep
  deriving DecidableEq, Repr

/-- The chomping that a sign stands for. -/
def chomping? : Char → Option Chomping
  | '+' => some .keep
  | '-' => some .strip
  | _ => none

/-- The step of the indentation that a digit gives. -/
def increment? (c : Char) : Read (Option Nat) :=
  if c == '0' then refuse else .ok (if c.isDigit then some (c.toNat - 0x30) else none)

/-- Read the header of a block: the chomping and the step of the indentation, in either order. -/
def blockHeader (c : Cursor) : Read (Chomping × Option Nat × Cursor) := do
  let (chomping, step, c) ← match chomping? c.peek with
    | some chomping => do
      let step ← increment? c.next.peek
      pure (chomping, step, if step.isSome then c.next.next else c.next)
    | none => do
      match ← increment? c.peek with
      | some n =>
        match chomping? c.next.peek with
        | some chomping => pure (chomping, some n, c.next.next)
        | none => pure (.clip, some n, c.next)
      | none => pure (Chomping.clip, none, c)
  require (c.peek == ' ' || isBreakOrEnd c.peek)
  let c := (c.skip (· == ' ')).skipComment
  require (isBreakOrEnd c.peek)
  return (chomping, step, if c.atEnd then c else c.takeBreak.2)

/-- The empty lines that open a block whose indentation is not known yet: their breaks, the
greatest column among them, and the place behind them. -/
def openingLines : (bound : Nat) → (deepest : Nat) → Cursor → List Char × Nat × Cursor
  | 0, deepest, c => ([], deepest, c)
  | bound + 1, deepest, c =>
    let c := c.skip (· == ' ')
    let deepest := max deepest c.column
    if isBreak c.peek then
      let (b, c) := c.takeBreak
      let (more, deepest, c) := openingLines bound deepest c
      (b :: more, deepest, c)
    else ([], deepest, c)

/-- The breaks of the empty lines inside a block, where up to `indent` spaces belong to the
indentation, and the place behind them. -/
def innerLines (indent : Nat) : (bound : Nat) → Cursor → List Char × Cursor
  | 0, c => ([], c)
  | bound + 1, c =>
    let c := c.advance (min (c.ahead (· == ' ')).length (indent - c.column))
    if isBreak c.peek then
      let (b, c) := c.takeBreak
      let (more, c) := innerLines indent bound c
      (b :: more, c)
    else ([], c)

/-- The lines of a block from a place on, with the breaks in front of them: the text without
its end, the newest character first, the break of the last line, the breaks behind that, and the
place behind them. -/
def blockLines (folded : Bool) (indent : Nat) :
    (bound : Nat) → (done breaks : List Char) → Cursor → List Char × List Char × List Char × Cursor
  | 0, done, breaks, c => (done, [], breaks, c)
  | bound + 1, done, breaks, c =>
    if c.column ≠ indent || c.atEnd then (done, [], breaks, c)
    else
      let opensPlain := !isBlank c.peek
      let line := c.ahead fun x => !isBreak x
      let done := line.reverse ++ (breaks.reverse ++ done)
      let c := c.advance line.length
      let (ending, c) := if c.atEnd then ([], c) else let (b, c) := c.takeBreak; ([b], c)
      let (breaks, c) := innerLines indent c.bound c
      if c.column = indent && !c.atEnd then
        let joint :=
          if folded && ending == ['\n'] && opensPlain && !isBlank c.peek then
            if breaks.isEmpty then [' '] else []
          else ending
        blockLines folded indent bound (joint ++ done) breaks c
      else (done, ending, breaks, c)

/-- Read a block behind its indicator, inside a block that is indented by `parent`, which is -1
outside of all blocks. -/
def block (folded : Bool) (parent : Int) (c : Cursor) : Read (String × Cursor) := do
  let (chomping, step, c) ← blockHeader c
  let least := max 1 (parent + 1).toNat
  let (breaks, indent, c) := match step with
    | none =>
      let (breaks, deepest, c) := openingLines c.bound 0 c
      (breaks, max least deepest, c)
    | some n =>
      let indent := least + n - 1
      let (breaks, c) := innerLines indent c.bound c
      (breaks, indent, c)
  let (done, ending, breaks, c) := blockLines folded indent c.bound [] breaks c
  let tail := match chomping with
    | .strip => []
    | .clip => ending
    | .keep => ending ++ breaks
  return (String.ofList (done.reverse ++ tail), c)

end TaintFlow.Yaml
