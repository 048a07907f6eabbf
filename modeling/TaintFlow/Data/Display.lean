/-
  TaintFlow.Data.Display
  ──────────────────────
  The text of a value.

  `Datum.display` is the text that a value contributes to a message or a name: a
  text stands for itself.  `Datum.literal` is its form inside a list or a mapping,
  where texts are quoted.  A group that is met again inside itself is written with dots.
-/
import TaintFlow.Data.Datum
import TaintFlow.Number.Numeral
import TaintFlow.Text.Quoted

namespace TaintFlow

/-! ## §1. Written forms. -/

/-- The form of a scalar inside a list or a mapping. -/
def Scalar.literal : Scalar → String
  | .null => "None"
  | .bool true => "True"
  | .bool false => "False"
  | .int n => toString n
  | .real x => x.format .standard
  | .text s => Text.quoted s
  | .bytes b => Text.quotedBytes b
  | .moment t => t.constructed

/-- The text of a scalar. -/
def Scalar.display : Scalar → String
  | .text s => s
  | .moment t => t.shown
  | s => s.literal

/-- The form of members of a set. -/
def setLiteral (members : List Scalar) : String :=
  if members.isEmpty then "set()" else "\x7b" ++ Text.joinWith ", " (members.map Scalar.literal) ++ "\x7d"

/-- The form of values that cannot be changed; one alone has a comma behind it. -/
def tupleLiteral (items : List String) : String :=
  match items with
  | [item] => "(" ++ item ++ ",)"
  | _ => "(" ++ Text.joinWith ", " items ++ ")"

/-- The form of a group inside itself. -/
def GroupKind.dots : GroupKind → String
  | .list => "[...]"
  | .set => "set(...)"
  | .map => "\x7b...\x7d"

namespace Datum

mutual

/-- The form of a value inside a list or a mapping. -/
def literal : Datum → String
  | .scalar s => s.literal
  | .list items => "[" ++ Text.joinWith ", " (literals items) ++ "]"
  | .tuple items => tupleLiteral (literals items)
  | .set members => setLiteral members
  | .map entries => "\x7b" ++ Text.joinWith ", " (entryLiterals entries) ++ "\x7d"
  | .shared kind _ => kind.dots

/-- The forms of the items of a list. -/
def literals : List Datum → List String
  | [] => []
  | d :: ds => literal d :: literals ds

/-- The forms of the entries of a mapping. -/
def entryLiterals : List (Scalar × Datum) → List String
  | [] => []
  | (k, d) :: rest => (k.literal ++ ": " ++ literal d) :: entryLiterals rest

end

/-- The text of a value. -/
def display : Datum → String
  | .scalar s => s.display
  | d => d.literal

/-! ## §2. What can be written. -/

/-- Has the scalar a text?  An integer with too many digits has none. -/
def scalarWritable : Scalar → Bool
  | .int n => decide (n.natAbs < Nat.pow 10 Numeral.maxDigits)
  | _ => true

mutual

/-- Has the value a text? -/
def writable : Datum → Bool
  | .scalar s => scalarWritable s
  | .list items | .tuple items => allWritable items
  | .set members => members.all scalarWritable
  | .map entries => entriesWritable entries
  | .shared .. => true

/-- Have all values a text? -/
def allWritable : List Datum → Bool
  | [] => true
  | d :: ds => writable d && allWritable ds

/-- Have all entries a text? -/
def entriesWritable : List (Scalar × Datum) → Bool
  | [] => true
  | (k, d) :: rest => scalarWritable k && writable d && entriesWritable rest

end

/-- The text of a value, if it has one. -/
def display? (d : Datum) : Option String := if d.writable then some d.display else none

end Datum

end TaintFlow
