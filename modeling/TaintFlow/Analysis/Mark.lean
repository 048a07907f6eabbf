/-
  TaintFlow.Analysis.Mark
  ───────────────────────
  Marks of any kind, for environments outside of an analysis.

  In an analysis marks are names.  An environment as such may also hold numbers, truth values or
  null.  Numbers that are worth the same are one mark, however they are written; marks
  of different kinds can be told apart but have no order that a listing could follow.
-/
import TaintFlow.Analysis.Env
import TaintFlow.Data.Display

namespace TaintFlow

/-- A mark: null, a number or truth value, or a name. -/
structure Mark where
  value : Scalar
  deriving DecidableEq, Repr

namespace Mark

/-! ## §1. The order. -/

/-- The kind of a mark. -/
inductive Kind where
  | null
  | number
  | name
  | other
  deriving DecidableEq, Repr

/-- The kind of a mark. -/
def kind (m : Mark) : Kind :=
  match m.value with
  | .null => .null
  | .bool _ | .int _ | .real _ => .number
  | .text _ => .name
  | _ => .other

/-- The place of a kind among the others. -/
def Kind.rank : Kind → Nat
  | .null => 0
  | .number => 1
  | .name => 2
  | .other => 3

/-- What a mark is worth as a number. -/
def quantity (m : Mark) : Quantity := m.value.quantity?.getD (0, 0)

/-- The text of a name. -/
def text (m : Mark) : String :=
  match m.value with
  | .text s => s
  | _ => ""

/-- Marks are ordered by kind, numbers by what they are worth, and names by code points. -/
def order (a b : Mark) : Ordering :=
  (compare a.kind.rank b.kind.rank).then
    ((compare a.quantity.1 b.quantity.1).then ((compare a.quantity.2 b.quantity.2).then (compare a.text b.text)))

instance : Ord Mark := ⟨order⟩

instance : Std.TransOrd Mark :=
  inferInstanceAs (Std.TransCmp (compareLex (compareOn fun m : Mark => m.kind.rank)
    (compareLex (compareOn fun m : Mark => m.quantity.1)
      (compareLex (compareOn fun m : Mark => m.quantity.2) (compareOn text)))))

/-! ## §2. Marks and values. -/

/-- The mark that a value is; groups are none. -/
def ofDatum? : Datum → Option Mark
  | .scalar s => some ⟨s⟩
  | _ => none

/-- The set of marks that a value lists. -/
def setOfDatum? (d : Datum) : Option (OrderedSet Mark) := do
  let items ← d.members?
  return .ofList (← items.mapM ofDatum?)

/-- Have the marks an order?  Numbers have one and names have one, and so has a single mark. -/
def comparable (marks : List Mark) : Bool :=
  marks.length ≤ 1 || marks.all (fun m => m.kind == .number) || marks.all (fun m => m.kind == .name)

/-- The marks of a set in order, if they have one. -/
def listed? (marks : OrderedSet Mark) : Option Datum :=
  if comparable marks.toList then some (.list (marks.toList.map fun m => .scalar m.value)) else none

/-- Do the sets have the same marks? -/
def sameMarks (a b : OrderedSet Mark) : Bool :=
  a.size == b.size && (a.toList.zip b.toList).all fun p => compare p.1 p.2 == .eq

end Mark

namespace Env

/-- The variables and their marks in order, if the marks have one. -/
def listed? (e : Env Mark) : Option (List (String × Datum)) :=
  e.bindings.entries.mapM fun b => return (b.1, ← Mark.listed? b.2)

/-- Have the environments the same variables with the same marks? -/
def sameMarks (a b : Env Mark) : Bool :=
  a.size == b.size && a.bindings.entries.all fun e => (b.bindings.get? e.1).any (Mark.sameMarks e.2)

/-- A set of marks as it is written in a listing. -/
def marksLiteral (marks : OrderedSet Mark) : String :=
  if marks.isEmpty then "frozenset()"
  else "frozenset(\x7b" ++ Text.joinWith ", " (marks.toList.map fun m => m.value.literal) ++ "\x7d)"

/-- The environment as it is written in a listing. -/
def literal (e : Env Mark) : String :=
  "TaintEnvironment(\x7b" ++
    Text.joinWith ", " (e.bindings.entries.map fun b => Text.quoted b.1 ++ ": " ++ marksLiteral b.2) ++ "\x7d)"

end Env

end TaintFlow
