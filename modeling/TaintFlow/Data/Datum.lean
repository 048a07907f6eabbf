/-
  TaintFlow.Data.Datum
  ────────────────────
  The value of a data file or of a request: scalars, lists and mappings, and what else a document
  may hold.

  A mapping keeps the order in which its keys were first given; giving a key
  again changes its value and not its place (`Assoc.put`).  The keys are scalars;
  `Datum.get?` asks for a text key, which is what every reader of a mapping does.
  A request holds scalars, lists and mappings only.  A document also has sets and pairs, and its
  groups are `shared`: the document keeps them under labels (`Data.Document`).
-/
import TaintFlow.Data.Timestamp
import TaintFlow.Number.Arithmetic
import TaintFlow.OrderedMap

namespace TaintFlow

/-! ## §1. The types. -/

/-- A value without parts. -/
inductive Scalar where
  | null
  | bool (value : Bool)
  | int (value : Int)
  | real (value : Binary64)
  | text (value : String)
  | bytes (value : List UInt8)
  | moment (value : Timestamp)
  deriving DecidableEq, Repr

instance : Inhabited Scalar := ⟨.null⟩

/-- The number that a scalar is, for comparison; truth values are zero and one. -/
def Scalar.quantity? : Scalar → Option Quantity
  | .bool b => some (.ofInt (if b then 1 else 0))
  | .int n => some (.ofInt n)
  | .real x => some (.ofReal x)
  | _ => none

/-- Are the scalars the same as keys?  Numbers are compared by what they are worth, and times by the
moment they mean. -/
def Scalar.sameKey (a b : Scalar) : Bool :=
  match a, b with
  | .moment t, .moment u => t.momentKey == u.momentKey
  | _, _ =>
    match a.quantity?, b.quantity? with
    | some x, some y => x == y
    | none, none => a == b
    | _, _ => false

/-- The kinds of groups that a document keeps under labels. -/
inductive GroupKind where
  | list
  | set
  | map
  deriving DecidableEq, Repr

/-- A value with or without parts. -/
inductive Datum where
  | scalar (value : Scalar)
  | list (items : List Datum)
  /-- Values in a row that cannot be changed. -/
  | tuple (items : List Datum)
  | set (members : List Scalar)
  | map (entries : List (Scalar × Datum))
  /-- The group that a document keeps under a label. -/
  | shared (kind : GroupKind) (label : Nat)
  deriving Repr

instance : Inhabited Datum := ⟨.scalar .null⟩

/-- The entries of a mapping. -/
abbrev Entries := List (Scalar × Datum)

namespace Datum

/-- The value that stands for absence. -/
@[match_pattern] abbrev null : Datum := .scalar .null

/-- A truth value. -/
@[match_pattern] abbrev bool (b : Bool) : Datum := .scalar (.bool b)

/-- An integer. -/
@[match_pattern] abbrev int (n : Int) : Datum := .scalar (.int n)

/-- A binary number. -/
@[match_pattern] abbrev real (x : Binary64) : Datum := .scalar (.real x)

/-- A text. -/
@[match_pattern] abbrev text (s : String) : Datum := .scalar (.text s)

/-! ## §2. Mappings. -/

/-- The entries of a mapping with text keys. -/
def object (entries : List (String × Datum)) : Datum :=
  .map (entries.map fun (k, v) => (.text k, v))

/-- The value of a text key; nothing when there is none or the datum is no mapping. -/
def get? (key : String) : Datum → Option Datum
  | .map entries => Assoc.get? (.text key) entries
  | _ => none

/-- The value of a text key, where an absent key counts as null. -/
def field (key : String) (d : Datum) : Datum := (d.get? key).getD null

/-! ## §3. Shape. -/

/-- Is the datum a mapping? -/
def isMap : Datum → Bool
  | .map _ => true
  | _ => false

/-- Is the datum null? -/
def isNull : Datum → Bool
  | .scalar .null => true
  | _ => false

/-- The text of a datum that is one. -/
def text? : Datum → Option String
  | .text s => some s
  | _ => none

/-- Does the value count as true?  Null, false, zero and everything empty do not. -/
def truth : Datum → Bool
  | .null => false
  | .bool b => b
  | .int n => n != 0
  | .real x => !x.isZero
  | .text s => s != ""
  | .scalar (.bytes b) => !b.isEmpty
  | .scalar (.moment _) | .shared .. => true
  | .list items | .tuple items => !items.isEmpty
  | .set members => !members.isEmpty
  | .map entries => !entries.isEmpty

/-- The name of a datum's type, as messages give it. -/
def typeName : Datum → String
  | .null => "NoneType"
  | .bool _ => "bool"
  | .int _ => "int"
  | .real _ => "float"
  | .text _ => "str"
  | .scalar (.bytes _) => "bytes"
  | .scalar (.moment t) => if t.time.isSome then "datetime" else "date"
  | .list _ | .shared .list _ => "list"
  | .tuple _ => "tuple"
  | .set _ | .shared .set _ => "set"
  | .map _ | .shared .map _ => "dict"

/-- The members that a walk over the datum visits: the items of a list, the keys
of a mapping, the characters of a text, the numbers of bytes.  Nothing else can be walked over. -/
def members? : Datum → Option (List Datum)
  | .list items | .tuple items => some items
  | .set members => some (members.map .scalar)
  | .map entries => some (entries.map fun e => .scalar e.1)
  | .text s => some (s.toList.map fun c => .text (String.singleton c))
  | .scalar (.bytes b) => some (b.map fun x => .int x.toNat)
  | _ => none

end Datum

end TaintFlow
