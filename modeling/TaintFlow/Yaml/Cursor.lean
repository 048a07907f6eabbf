/-
  TaintFlow.Yaml.Cursor
  ─────────────────────
  A place in the text of a YAML document: what is left of the text, and the line and the
  column at which it goes on.

  The grammar of YAML asks for columns (a deeper block starts further to the right) and for
  lines (a key and its colon share one), so every step forward keeps count of both.
-/
import TaintFlow.Yaml.Error

namespace TaintFlow.Yaml

/-! ## §1. Characters. -/

/-- The character that stands behind the end of a text.  No text that is read contains it. -/
def endMark : Char := '\x00'

/-- Does the character end a line? -/
def isBreak (c : Char) : Bool :=
  c == '\n' || c == '\r' || c == '\x85' || c == '\u2028' || c == '\u2029'

/-- Does a line end here? -/
def isBreakOrEnd (c : Char) : Bool := isBreak c || c == endMark

/-- A space or a tab. -/
def isBlank (c : Char) : Bool := c == ' ' || c == '\t'

/-- Does a word end here? -/
def isSeparator (c : Char) : Bool := isBlank c || isBreakOrEnd c

/-- The characters of names: letters, digits, hyphen and underscore. -/
def isNameChar (c : Char) : Bool := c.isAlphanum || c == '-' || c == '_'

/-- May the character occur in a document at all? -/
def isAllowed (c : Char) : Bool :=
  let n := c.toNat
  n == 0x09 || n == 0x0A || n == 0x0D || (0x20 ≤ n && n ≤ 0x7E) || n == 0x85 ||
    (0xA0 ≤ n && n ≤ 0xFFFD) || 0x10000 ≤ n

/-- The mark that may open a text and says how its bytes are ordered. -/
def byteOrderMark : Char := '\ufeff'

/-! ## §2. Places. -/

/-- A place in a text.  No loop over the text takes as many rounds as `bound` says. -/
structure Cursor where
  rest : List Char
  bound : Nat
  index : Nat := 0
  line : Nat := 0
  column : Nat := 0
  deriving DecidableEq, Repr

namespace Cursor

/-- The start of a text. -/
def start (text : List Char) : Cursor := { rest := text, bound := text.length + 1 }

/-- The character `n` places ahead. -/
def peekAt (c : Cursor) (n : Nat) : Char := (c.rest.drop n).headD endMark

/-- The character ahead. -/
def peek (c : Cursor) : Char := c.peekAt 0

/-- Is the text at its end? -/
def atEnd (c : Cursor) : Bool := c.rest.isEmpty

/-- Go on only when the condition holds.  At the end of the text it may be that something is missing. -/
def expect (c : Cursor) (condition : Bool) : Read Unit :=
  if condition then .ok () else .error (if c.atEnd then .unfinished else .malformed)

/-- One character further.  A carriage return with a line feed behind it does not end the line
yet, and a byte order mark has no width. -/
def next (c : Cursor) : Cursor :=
  match c.rest with
  | [] => c
  | x :: rest =>
    if isBreak x && !(x == '\r' && rest.headD endMark == '\n') then
      ⟨rest, c.bound, c.index + 1, c.line + 1, 0⟩
    else ⟨rest, c.bound, c.index + 1, c.line, if x == byteOrderMark then c.column else c.column + 1⟩

/-- Several characters further. -/
def advance : Nat → Cursor → Cursor
  | 0, c => c
  | n + 1, c => advance n c.next

/-- The characters ahead up to the first one that fails the test. -/
def ahead (p : Char → Bool) (c : Cursor) : List Char := c.rest.takeWhile p

/-- The place behind the characters ahead that pass the test. -/
def skip (p : Char → Bool) (c : Cursor) : Cursor := c.advance (c.ahead p).length

/-- The line break ahead, in its plain form, and the place behind it. -/
def takeBreak (c : Cursor) : Char × Cursor :=
  match c.rest with
  | '\r' :: '\n' :: _ => ('\n', c.advance 2)
  | x :: _ => (if x == '\u2028' || x == '\u2029' then x else '\n', c.next)
  | [] => ('\n', c)

/-- Does a mark that opens or closes a document stand here? -/
def atDocumentMark (c : Cursor) : Bool :=
  (c.rest.take 3 == ['-', '-', '-'] || c.rest.take 3 == ['.', '.', '.']) && isSeparator (c.peekAt 3)

/-- The place behind a comment that may stand here. -/
def skipComment (c : Cursor) : Cursor :=
  if c.peek == '#' then c.skip fun x => !isBreak x else c

end Cursor

end TaintFlow.Yaml
