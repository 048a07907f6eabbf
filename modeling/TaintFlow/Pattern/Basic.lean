/-
  TaintFlow.Pattern.Basic
  ───────────────────────
  Flow patterns and lists of names.

  A pattern names the places where foreign data enters, the functions that clean it and
  the functions it must not reach uncleaned.  Its three lists may be given as one text
  with commas or as a list; blanks around a name do not count, and empty names are dropped.
-/
import TaintFlow.Data.Display
import TaintFlow.OrderedSet

namespace TaintFlow

/-! ## §1. Lists of names. -/

/-- The names without the blanks around them; what is then empty is dropped. -/
def cleanNames (items : List String) : List String := (items.map Text.trim).filter (· ≠ "")

/-- The names that a value lists: the parts of a text between commas, the texts of the
items of a list, or the keys of a mapping.  Null lists none, and any other value lists
nothing at all. -/
def splitNames? (d : Datum) : Option (List String) :=
  match d with
  | .null => some []
  | .text s => some (cleanNames (Text.split ',' s))
  | d => d.members?.map fun items => cleanNames (items.map Datum.display)

/-! ## §2. Patterns. -/

/-- A kind of vulnerability: foreign data from an entry point reaches a sink, and no
sanitizer has cleaned it. -/
structure Pattern where
  name : String
  entryPoints : NameSet
  sanitizers : NameSet
  sinks : NameSet
  deriving DecidableEq, Repr

namespace Pattern

/-- The pattern with the given name and lists of names. -/
def build (name : String) (entryPoints sanitizers sinks : List String) : Pattern :=
  { name := Text.trim name, entryPoints := .ofList entryPoints, sanitizers := .ofList sanitizers,
    sinks := .ofList sinks }

/-- Why values do not make a pattern. -/
inductive ValueError where
  | nameNotAText
  | notAListOfNames
  deriving DecidableEq, Repr

/-- The pattern of a name and three values that list names. -/
def ofValues (name entryPoints sanitizers sinks : Datum) : Except ValueError Pattern :=
  match name with
  | .text name =>
    match splitNames? entryPoints, splitNames? sanitizers, splitNames? sinks with
    | some entryPoints, some sanitizers, some sinks => .ok (build name entryPoints sanitizers sinks)
    | _, _, _ => .error .notAListOfNames
  | _ => .error .nameNotAText

/-- The pattern of four lines, the last three with commas between the names. -/
def ofLines (name entryPoints sanitizers sinks : String) : Pattern :=
  build name (cleanNames (Text.split ',' entryPoints)) (cleanNames (Text.split ',' sanitizers))
    (cleanNames (Text.split ',' sinks))

/-- The pattern as a record, its names in order. -/
def toDatum (p : Pattern) : Datum :=
  .object
    [("name", .text p.name),
     ("entry_points", .list (p.entryPoints.toList.map .text)),
     ("sanitizers", .list (p.sanitizers.toList.map .text)),
     ("sinks", .list (p.sinks.toList.map .text))]

end Pattern

end TaintFlow
