/-
  TaintFlow.Yaml.Value
  ────────────────────
  The value of a document.

  A scalar means what its tag says.  A mapping has the entries that are merged in first and then
  its own, and of several entries with one key the last value counts.  Only scalars can be keys.
  A node has one value, however often it occurs.  Groups are filled in the order in which
  they are met, one level after the other, and the first fault that is met so is the one that counts.
-/
import TaintFlow.Data.Document
import TaintFlow.Text.Base64
import TaintFlow.Yaml.Graph

namespace TaintFlow.Yaml

open Numeral

/-! ## §1. Numbers. -/

/-- The number that was read, if there is one. -/
def numeral {α : Type} : Option α → Read α
  | some a => .ok a
  | none => .error (.value .numeral)

/-- The integer behind a sign in one of its written forms. -/
def unsignedInteger (cs : List Char) : Read Int :=
  match cs with
  | [] => .error (.value .emptyNumeral)
  | ['0'] => .ok 0
  | '0' :: 'b' :: rest => numeral (wholeIn? 2 rest)
  | '0' :: 'x' :: rest => numeral (wholeIn? 16 rest)
  | '0' :: _ => numeral (wholeIn? 8 cs)
  | _ => (Text.splitChars ':' cs).foldlM (fun n part => return 60 * n + (← numeral (whole? part))) 0

/-- The integer that a text stands for. -/
def integer (text : String) : Read Int := do
  let (negative, cs) := spanSign (text.toList.filter (· ≠ '_'))
  let n ← unsignedInteger cs
  return if negative then -n else n

/-- The sum of the parts of a number in the base sixty, the last part first. -/
def sixtieths : (base : Nat) → (total : Binary64) → List (List Char) → Read Binary64
  | _, total, [] => .ok total
  | base, total, part :: more => do
    let x ← numeral (real? part)
    match Binary64.ofInt base with
    | .infinite _ => throw (.value .tooManyParts)
    | scale => sixtieths (base * 60) (total.add (x.mul scale)) more

/-- The number with a point behind a sign in one of its written forms. -/
def unsignedReal (cs : List Char) : Read Binary64 :=
  match String.ofList cs with
  | ".inf" => .ok (.infinite false)
  | ".nan" => .ok .undefined
  | _ =>
    match (Text.splitChars ':' cs).reverse with
    | parts@(_ :: _ :: _) => do
      let _ ← parts.reverse.mapM fun part => numeral (real? part)
      sixtieths 1 (.zero false) parts
    | _ => numeral (real? cs)

/-- The number with a point that a text stands for. -/
def real (text : String) : Read Binary64 := do
  let cs := (Text.lowercase text).toList.filter (· ≠ '_')
  if cs.isEmpty then throw (.value .emptyNumeral)
  let (negative, cs) := spanSign cs
  let x ← unsignedReal cs
  return if negative then x.neg else x

/-! ## §2. Dates. -/

/-- The minutes ahead of universal time that an offset stands for. -/
def offsetMinutes : Option Char × List Char × List Char → Int
  | (sign, hours, minutes) =>
    let n : Int := 60 * decimalNumber hours + decimalNumber minutes
    if sign = some '-' then -n else n

/-- The timestamp that a text stands for. -/
def date (text : String) : Read Timestamp :=
  match dateDigits (withoutFinalBreak text.toList) with
  | none => .error (.value .notADate)
  | some d =>
    let t : Timestamp :=
      { year := decimalNumber d.year
        month := decimalNumber d.month
        day := decimalNumber d.day
        time := d.time.map fun c =>
          { hour := decimalNumber c.hour
            minute := decimalNumber c.minute
            second := decimalNumber c.second
            microsecond := decimalNumber ((c.fraction ++ List.replicate 6 '0').take 6)
            offset := c.offset.map offsetMinutes } }
    if t.valid then .ok t else .error (.value .date)

/-! ## §3. Scalars. -/

/-- The bytes that a text stands for. -/
def binary (text : String) : Read (List UInt8) :=
  match Text.base64? text.toList with
  | some bytes => if text.toList.all fun c => c.toNat < 0x80 then .ok bytes else refuse
  | none => refuse

/-- The scalar that a text stands for by its tag. -/
def scalarValue (tag : Tag) (text : String) : Read Scalar :=
  match tag with
  | .null => return .null
  | .bool =>
    match truthWords.find? fun w => w.1 = Text.lowercase text with
    | some w => return .bool w.2
    | none => .error (.value .truthValue)
  | .int => do return .int (← integer text)
  | .real => do return .real (← real text)
  | .text => return .text text
  | .bytes => do return .bytes (← binary text)
  | .date => do return .moment (← date text)
  | _ => refuse

/-- The kind of group that a tag makes. -/
def Tag.groupKind? : Tag → Option GroupKind
  | .list | .pairs => some .list
  | .set => some .set
  | .map => some .map
  | _ => none

/-- A group without parts. -/
def emptyGroup : GroupKind → Datum
  | .list => .list []
  | .set => .set []
  | .map => .map []

/-! ## §4. The state of the making. -/

/-- The nodes, the values that some of them have by now, the groups, and those that are still to be
filled, the newest first.  There are not more than `merges` merging entries. -/
structure Making where
  nodes : Array Node
  values : Array (Option Datum)
  merges : Nat
  store : Store := {}
  pending : List (Nat × Nat) := []

/-- A step of the making. -/
abbrev Maker := StateT Making Read

/-- The node with a number. -/
def nodeAt (n : Nat) : Maker Node := do return ((← get).nodes[n]?).getD .nothing

/-- Change the node with a number. -/
def changeNode (n : Nat) (f : Node → Node) : Maker Unit :=
  modify fun m => { m with nodes := m.nodes.modify n f }

/-- The text of a scalar.  A mapping stands for the value under its default key. -/
def scalarText : (bound : Nat) → (n : Nat) → Maker String
  | 0, _ => throw (.value .endless)
  | bound + 1, n => do
    match (← nodeAt n).content with
    | .scalar text => return text
    | .list _ => throw .malformed
    | .map entries =>
      let nodes := (← get).nodes
      match entries.find? fun e => ((nodes[e.1]?).getD .nothing).tag = .default with
      | some e => scalarText bound e.2
      | none => throw .malformed

/-- The value of a node that is no group. -/
def scalarOf (n : Nat) : Maker Scalar := do
  let node ← nodeAt n
  match node.tag with
  | .null | .bool | .int | .real | .text | .bytes | .date =>
    let text ← scalarText ((← get).nodes.size + 1) n
    match node.tag, node.content with
    | .date, .map _ => throw (.value .dateByMapping)
    | tag, _ => scalarValue tag text
  | _ => throw .malformed

/-- The value of a node.  A group is empty at first and is filled later. -/
def valueOf (n : Nat) : Maker Datum := do
  match ((← get).values[n]?).join with
  | some d => return d
  | none =>
    let d ← match (← nodeAt n).tag.groupKind? with
      | some kind => do
        let m ← get
        let (store, label) := m.store.keep (emptyGroup kind)
        set { m with store := store, pending := (n, label) :: m.pending }
        pure (Datum.shared kind label)
      | none => do pure (Datum.scalar (← scalarOf n))
    modify fun m => { m with values := m.values.setIfInBounds n (some d) }
    return d

/-! ## §5. Mappings. -/

/-- The entries of a node that has to be a mapping. -/
def entriesAt (n : Nat) : Maker (List (Nat × Nat)) := do
  match (← nodeAt n).content with
  | .map entries => return entries
  | _ => throw .malformed

/-- The place of the first merging entry from a place on. -/
def mergePlace? (nodes : Array Node) (start : Nat) (entries : List (Nat × Nat)) : Option Nat :=
  ((entries.drop start).findIdx? fun e => ((nodes[e.1]?).getD .nothing).tag = .merge).map (start + ·)

/-- Default keys of a mapping count as texts. -/
def plainKeys (entries : List (Nat × Nat)) : Maker Unit :=
  entries.forM fun e => changeNode e.1 fun k => if k.tag = .default then { k with tag := .text } else k

/-- Put the entries that are merged into a mapping in front of its own.  The mappings that they come from
are treated in the same way first; of several in a list the first one counts most.  Each step takes
one merging entry away, so the bound is the number of these. -/
def mergeIn : (bound : Nat) → (n start : Nat) → (merged : List (Nat × Nat)) → Maker Unit
  | 0, _, _, _ => pure ()
  | bound + 1, n, start, merged => do
    let entries ← entriesAt n
    match mergePlace? (← get).nodes start entries with
    | none =>
      plainKeys entries
      changeNode n fun node => { node with content := .map (merged ++ entries) }
    | some place =>
      plainKeys (entries.take place)
      changeNode n fun node => { node with content := .map (entries.eraseIdx place) }
      let source := (entries.getD place (0, 0)).2
      let added ← match (← nodeAt source).content with
        | .map _ => do
          mergeIn bound source 0 []
          entriesAt source
        | .list items => do
          let groups ← items.mapM fun item => do
            let _ ← entriesAt item
            mergeIn bound item 0 []
            entriesAt item
          pure groups.reverse.flatten
        | .scalar _ => throw .malformed
      mergeIn bound n place (merged ++ added)

/-- The number of merging entries. -/
def mergeCount (nodes : Array Node) : Nat :=
  nodes.foldl (fun count node =>
    match node.content with
    | .map entries => count + entries.countP fun e => ((nodes[e.1]?).getD .nothing).tag = .merge
    | _ => count) 0

/-- The entries with a key set to a value: in its old place, or else at the end. -/
def putEntry (key : Scalar) (value : Datum) : Entries → Entries
  | [] => [(key, value)]
  | (k, v) :: rest => if k.sameKey key then (k, value) :: rest else (k, v) :: putEntry key value rest

/-- The values of entries one after the other. -/
def entryValues : (done : Entries) → List (Nat × Nat) → Maker Entries
  | done, [] => return done
  | done, (k, v) :: rest => do
    match ← valueOf k with
    | .scalar key =>
      let value ← valueOf v
      entryValues (putEntry key value done) rest
    | _ => throw .malformed

/-- The entries of a mapping. -/
def mappingOf (n : Nat) : Maker Entries := do
  let _ ← entriesAt n
  mergeIn ((← get).merges + 1) n 0 []
  entryValues [] (← entriesAt n)

/-! ## §6. Groups. -/

/-- A pair that is written as a mapping with one entry. -/
def pairOf (n : Nat) : Maker Datum := do
  match ← entriesAt n with
  | [(k, v)] =>
    let key ← valueOf k
    let value ← valueOf v
    return .tuple [key, value]
  | _ => throw .malformed

/-- The items of a node that has to be a list. -/
def itemsAt (n : Nat) : Maker (List Nat) := do
  match (← nodeAt n).content with
  | .list items => return items
  | _ => throw .malformed

/-- Fill the group of a node. -/
def fillGroup (n label : Nat) : Maker Unit := do
  let d ← match (← nodeAt n).tag with
    | .list => do pure (Datum.list (← (← itemsAt n).mapM valueOf))
    | .pairs => do pure (Datum.list (← (← itemsAt n).mapM pairOf))
    | .set => do pure (Datum.set ((← mappingOf n).map (·.1)))
    | _ => do pure (Datum.map (← mappingOf n))
  modify fun m => { m with store := m.store.put label d }

/-- Fill all groups, one level after the other. -/
def fillGroups : (bound : Nat) → Maker Unit
  | 0 => pure ()
  | bound + 1 => do
    match (← get).pending with
    | [] => pure ()
    | pending =>
      modify fun m => { m with pending := [] }
      pending.reverse.forM fun (n, label) => fillGroup n label
      fillGroups bound

/-! ## §7. Documents. -/

/-- The document of its nodes. -/
def Graph.toDocument (g : Graph) : Read Document := do
  let start : Making :=
    { nodes := g.nodes, values := Array.replicate g.nodes.size none, merges := mergeCount g.nodes }
  let (root, m) ← (do
    let root ← valueOf g.root
    fillGroups (g.nodes.size + 1)
    return root : Maker Datum).run start
  return ⟨m.store, root⟩

/-- The document in a source; where there is none the value is null. -/
def readSource (source : Source) : Read Document := do
  match ← Graph.read source with
  | none => return ⟨{}, .null⟩
  | some g => g.toDocument

/-- The document in a text. -/
def read (text : String) : Read Document := readSource ⟨text.toList, none⟩

end TaintFlow.Yaml
