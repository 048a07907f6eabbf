/-
  TaintFlow.Syntax.Builder
  ────────────────────────
  From data to syntax trees.

  `build` turns a value into a node.  Missing, misplaced and unrecognised parts become
  `unknown` nodes, each counted under its reason at the moment it is made.  Two things
  cannot be built: an interpolated text whose parts are given by a value that cannot be
  walked over, and a literal or an operator with a number in it that has too many digits
  to be written.  Trees deeper than the given limit are refused.
-/
import TaintFlow.Data.Display
import TaintFlow.Log.Event
import TaintFlow.Syntax.Node
import TaintFlow.Tally

namespace TaintFlow.Syntax

/-! ## §1. The builder's effects. -/

/-- Why a tree cannot be built. -/
inductive BuildError where
  /-- The parts of an interpolated text are given by a number or a truth value. -/
  | partsNotWalkable
  /-- A literal or an operator is a number with too many digits, or has one in it. -/
  | unwritable
  /-- The nodes are nested too deeply. -/
  | tooDeep
  deriving DecidableEq, Repr

/-- What a builder leaves behind besides its node. -/
structure Notes where
  diagnostics : Tally := {}
  events : List Event := []
  deriving Repr

/-- A computation that counts degradations and may fail. -/
abbrev Builder := ExceptT BuildError (StateM Notes)

/-- Make an `unknown` node and count it. -/
def degrade (reason : Degradation) (rawKind : Option String) : Builder Node := do
  modify fun notes =>
    { diagnostics := notes.diagnostics.record reason.reason,
      events := notes.events ++ [.degraded reason.reason rawKind] }
  return .unknown rawKind reason

/-! ## §2. Fields.

Each reader of a field is given the builder `build` for the nodes inside of it. -/

/-- A part that must be there: an absent or null one is degraded. -/
def requiredPart (build : Datum → Builder Node) (raw : Datum) (kind : Kind) (part : Part) : Builder Node :=
  match raw.get? part.name with
  | none | some .null => degrade (.missing part) (some kind.name)
  | some d => build d

/-- The items of a list; anything else has none. -/
def nodes (build : Datum → Builder Node) : Datum → Builder (List Node)
  | .list items => items.mapM build
  | _ => return []

/-- The statements of a branch or loop body: those of a block, or a single one. -/
def statements (build : Datum → Builder Node) : Datum → Builder (List Node)
  | .null => return []
  | d =>
    match d.get? "kind" with
    | some (.text "block") => nodes build (d.field "children")
    | _ => return [← build d]

/-- A part of an interpolated text: the expression inside of a wrapper, or the value itself. -/
def unwrapPart (d : Datum) : Datum :=
  match d.get? "kind" with
  | some (.text "encapsedpart") => d.field "expression"
  | _ => d

/-- The parts of an interpolated text; what counts as false has none. -/
def parts (build : Datum → Builder Node) (d : Datum) : Builder (List Node) :=
  if d.truth then
    match d.members? with
    | some items => items.mapM fun item => build (unwrapPart item)
    | none => throw .partsNotWalkable
  else return []

/-- The text of a literal or an operator, however it is given. -/
def written (d : Datum) : Builder String :=
  match d.display? with
  | some text => return text
  | none => throw .unwritable

/-- The `name` of an object, if it is a text. -/
def nameOf (d : Datum) : Option String := (d.get? "name").bind Datum.text?

/-! ## §3. Nodes. -/

/-- The node of an object whose kind is known. -/
def buildKind (build : Datum → Builder Node) (raw : Datum) : Kind → Builder Node
  | .assign => do
    let left ← requiredPart build raw .assign .left
    let right ← requiredPart build raw .assign .right
    return .assign left right
  | .echo => return .echo (← nodes build (raw.field "arguments"))
  | .cond => do
    let test ← requiredPart build raw .cond .test
    let body ← statements build (raw.field "body")
    match raw.field "alternate" with
    | .null => return .cond test body none
    | alternate => return .cond test body (some (← statements build alternate))
  | .loop => do
    let test ← requiredPart build raw .loop .test
    let body ← statements build (raw.field "body")
    return .loop test body
  | .bin => do
    let operator ← written ((raw.get? "type").getD (.text ""))
    let left ← requiredPart build raw .bin .left
    let right ← requiredPart build raw .bin .right
    return .bin operator left right
  | .call => return .call (nameOf (raw.field "what")) (← nodes build (raw.field "arguments"))
  | .offsetLookup =>
    let name := nameOf (raw.field "what")
    match raw.field "offset" with
    | .null => return .offsetLookup name none
    | offset => return .offsetLookup name (some (← build offset))
  | .var => return .var (nameOf raw)
  | .string =>
    match raw.field "value" with
    | .null => return .string ""
    | value => return .string (← written value)
  | .encapsed => return .encapsed (← parts build (raw.field "value"))
  | .block => return .block (← nodes build (raw.field "children"))

/-- The node of a value whose nodes are nested at most `limit` deep. -/
def build (limit : Nat) (raw : Datum) : Builder Node :=
  match limit with
  | 0 => throw .tooDeep
  | limit + 1 =>
    if raw.isMap then
      match raw.get? "kind" with
      | some (.text kind) =>
        match Kind.ofName? kind with
        | some kind => buildKind (build limit) raw kind
        | none => degrade .unrecognizedKind (some kind)
      | _ => degrade .withoutKind none
    else degrade .notAnObject none

end TaintFlow.Syntax
