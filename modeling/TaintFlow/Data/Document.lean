/-
  TaintFlow.Data.Document
  ───────────────────────
  Documents: values whose groups may occur in several places, and even inside themselves.

  A document keeps its groups in a store, and where a group occurs there is its label.  `Store.look`
  gives the value itself, `Store.expand` puts groups in the place of labels throughout; a group that
  is met again inside itself keeps its label there.
-/
import TaintFlow.Data.Display

namespace TaintFlow

/-- The groups of a document, each under its label. -/
structure Store where
  groups : Array Datum := #[]

instance : Inhabited Store := ⟨{}⟩

/-- A value and the groups in it. -/
structure Document where
  store : Store
  root : Datum

instance : Inhabited Document := ⟨⟨{}, .null⟩⟩

/-! ## §1. Labels in a value. -/

namespace Datum

mutual

/-- The value with something else in the place of every label. -/
def withGroups (group : GroupKind → Nat → Datum) : Datum → Datum
  | .scalar s => .scalar s
  | .list items => .list (allWithGroups group items)
  | .tuple items => .tuple (allWithGroups group items)
  | .set members => .set members
  | .map entries => .map (entriesWithGroups group entries)
  | .shared kind label => group kind label

/-- The values with something else in the place of every label. -/
def allWithGroups (group : GroupKind → Nat → Datum) : List Datum → List Datum
  | [] => []
  | d :: ds => withGroups group d :: allWithGroups group ds

/-- The entries with something else in the place of every label. -/
def entriesWithGroups (group : GroupKind → Nat → Datum) : List (Scalar × Datum) → List (Scalar × Datum)
  | [] => []
  | (k, d) :: rest => (k, withGroups group d) :: entriesWithGroups group rest

end

end Datum

/-! ## §2. Stores. -/

namespace Store

/-- The group under a label. -/
def group (s : Store) (label : Nat) : Datum := (s.groups[label]?).getD .null

/-- The value itself, where a label may stand for it. -/
def look (s : Store) : Datum → Datum
  | .shared _ label => s.group label
  | d => d

/-- Keep a group under the next label. -/
def keep (s : Store) (d : Datum) : Store × Nat := (⟨s.groups.push d⟩, s.groups.size)

/-- Change the group under a label. -/
def put (s : Store) (label : Nat) (d : Datum) : Store := ⟨s.groups.setIfInBounds label d⟩

/-- The value with groups in the place of labels.  The labels in `entered` are those of the groups
around the value. -/
def expandIn (s : Store) : (bound : Nat) → (entered : List Nat) → Datum → Datum
  | 0, _, d => d
  | bound + 1, entered, d =>
    d.withGroups fun kind label =>
      if entered.contains label then .shared kind label
      else expandIn s bound (label :: entered) (s.group label)

/-- The value with groups in the place of labels.  Groups are nested at most as deeply as there are
groups. -/
def expand (s : Store) (d : Datum) : Datum := s.expandIn (s.groups.size + 1) [] d

/-- The text of a value, if it has one. -/
def display? (s : Store) (d : Datum) : Option String := (s.expand d).display?

end Store

end TaintFlow
