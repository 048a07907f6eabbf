/-
  TaintFlow.Pattern.Catalog
  ─────────────────────────
  Catalogs of patterns: their queries, and how they are read from text, from records and from
  documents.

  The text format gives four lines to a pattern (name, entry points, sanitizers, sinks)
  and ends it by a line with a single `-`; the last pattern may do without that line.
  Blank lines in front of a pattern do not count, and neither do those behind its four.
-/
import TaintFlow.Pattern.Basic
import TaintFlow.Yaml.Value

namespace TaintFlow

/-- Patterns in order.  Several may have one name. -/
structure Catalog where
  patterns : List Pattern
  deriving DecidableEq, Repr

/-! ## §1. Errors. -/

/-- Why a catalog is refused. -/
inductive CatalogRefusal where
  /-- A group of lines is not a pattern; `line` is the line that ends it, if there is one. -/
  | badGroup (line : Option Nat) (count : Nat)
  | notYaml
  | noPatternList
  | recordsNotAList (typeName : String)
  | nameMissing (position : Nat)
  | badNameList (position : Nat) (field : String)
  | notACatalog (typeName : String)
  | fileMissing (path : String)
  deriving DecidableEq, Repr

/-- The wording of a refusal. -/
def CatalogRefusal.message : CatalogRefusal → String
  | .badGroup (some line) count => s!"第 {line} 行之前的模式应包含 4 行，实际为 {count} 行"
  | .badGroup none count => s!"文件末尾的模式应包含 4 行，实际为 {count} 行"
  | .notYaml => "模式文件不是合法的 YAML"
  | .noPatternList => "YAML 模式文件需要顶层 patterns 列表"
  | .recordsNotAList typeName => s!"模式列表必须是数组，实际为 {typeName}"
  | .nameMissing position => s!"第 {position} 个模式缺少 name"
  | .badNameList position field => s!"第 {position} 个模式的 {field} 必须是逗号分隔的字符串或字符串列表"
  | .notACatalog typeName => s!"无法把 {typeName} 当作模式列表"
  | .fileMissing path => s!"找不到模式文件: {path}"

/-- Why there is no catalog.  Only a refusal is put into words; the other errors end the work at hand. -/
inductive CatalogError where
  | refused (why : CatalogRefusal)
  /-- The text is a document, and a scalar in it is wrong. -/
  | badValue (fault : Yaml.ValueFault)
  /-- What should name a file is no text. -/
  | pathNotAText
  /-- The number that should name an open file is none that an open file can have. -/
  | pathNumberTooGreat
  /-- The name of a pattern is a number with too many digits, or has one in it. -/
  | nameUnwritable
  deriving DecidableEq, Repr

namespace Catalog

/-- The catalog without patterns. -/
def empty : Catalog := ⟨[]⟩

instance : Inhabited Catalog := ⟨empty⟩

/-! ## §2. Queries. -/

/-- The names of the patterns in order. -/
def names (c : Catalog) : List String := c.patterns.map (·.name)

/-- The first pattern with a name. -/
def get? (c : Catalog) (name : String) : Option Pattern := c.patterns.find? fun p => p.name = name

/-- The patterns as records. -/
def toDatum (c : Catalog) : Datum := .list (c.patterns.map Pattern.toDatum)

/-- Those of the patterns that have the entry point. -/
def withEntryPoint (name : String) (patterns : List Pattern) : List Pattern :=
  patterns.filter fun p => name ∈ p.entryPoints

/-- Those of the patterns that have the sanitizer. -/
def withSanitizer (name : String) (patterns : List Pattern) : List Pattern :=
  patterns.filter fun p => name ∈ p.sanitizers

/-- Those of the patterns that have the sink. -/
def withSink (name : String) (patterns : List Pattern) : List Pattern :=
  patterns.filter fun p => name ∈ p.sinks

/-! ## §3. The text format. -/

/-- The line that ends a pattern. -/
def delimiter : String := "-"

/-- Drop blank lines from the end as long as there are more than four lines. -/
def dropExcessBlank (newestFirst : List String) : List String :=
  match newestFirst with
  | [] => []
  | line :: rest => if line = "" ∧ 4 ≤ rest.length then dropExcessBlank rest else line :: rest

/-- The pattern of a group of lines, the newest first. -/
def patternOfGroup (newestFirst : List String) (line : Option Nat) : Except CatalogError Pattern :=
  match dropExcessBlank newestFirst with
  | [sinks, sanitizers, entryPoints, name] =>
    if name = "" then .error (.refused (.badGroup line 4))
    else .ok (.ofLines name entryPoints sanitizers sinks)
  | group => .error (.refused (.badGroup line group.length))

/-- Read trimmed lines.  `number` is the number of the first one, `done` has the patterns
so far and `group` the lines since the last delimiter, both with the newest first. -/
def readLines (done : List Pattern) (group : List String) (number : Nat) :
    List String → Except CatalogError Catalog
  | [] =>
    if group.any (· ≠ "") then do
      let p ← patternOfGroup group none
      return ⟨(p :: done).reverse⟩
    else return ⟨done.reverse⟩
  | line :: rest =>
    if line = delimiter then do
      let p ← patternOfGroup group (some number)
      readLines (p :: done) [] (number + 1) rest
    else if line ≠ "" ∨ group ≠ [] then readLines done (line :: group) (number + 1) rest
    else readLines done group (number + 1) rest

/-- The catalog of a text. -/
def ofText (content : String) : Except CatalogError Catalog :=
  readLines [] [] 1 ((Text.lines content).map Text.trim)

/-! ## §4. Records.

The records of a request are plain data.  Those of a document may be labels, and so may their fields;
the store of the document has the values. -/

/-- May the value list names in a record?  Null, a text and a list of texts may. -/
def isNameList : Datum → Bool
  | .null | .text _ => true
  | .list items => items.all fun d => d.text?.isSome
  | _ => false

/-- The fields of a record that list names. -/
def nameListFields : List String := ["entry_points", "sanitizers", "sinks"]

/-- The names in a field of a checked record. -/
def fieldNames (s : Store) (record : Datum) (field : String) : List String :=
  (splitNames? (s.look (record.field field))).getD []

/-- The pattern of the record at a position. -/
def patternOfRecord (s : Store) (position : Nat) (record : Datum) : Except CatalogError Pattern :=
  let record := s.look record
  if (s.look (record.field "name")).truth then
    match nameListFields.find? fun f => !isNameList (s.look (record.field f)) with
    | some f => .error (.refused (.badNameList position f))
    | none =>
      match s.display? (record.field "name") with
      | some name =>
        .ok (.build name (fieldNames s record "entry_points") (fieldNames s record "sanitizers")
          (fieldNames s record "sinks"))
      | none => .error .nameUnwritable
  else .error (.refused (.nameMissing position))

/-- The patterns of records, the first of which is at `position`. -/
def patternsOfRecords (s : Store) (position : Nat) : List Datum → Except CatalogError (List Pattern)
  | [] => return []
  | record :: rest => do
    let p ← patternOfRecord s position record
    return p :: (← patternsOfRecords s (position + 1) rest)

/-- The catalog of records in a row. -/
def ofRecords : Datum → Except CatalogError Catalog
  | .list records | .tuple records => do return ⟨← patternsOfRecords {} 1 records⟩
  | d => .error (.refused (.recordsNotAList d.typeName))

/-- The catalog that a request gives: a list of records, which may be empty. -/
def ofDatum : Datum → Except CatalogError Catalog
  | .list records | .tuple records => ofRecords (.list records)
  | .set members => ofRecords (.list (members.map .scalar))
  | d => .error (.refused (.notACatalog d.typeName))

/-- The catalog that a request gives, where null stands for no patterns. -/
def ofOptional (d : Datum) : Except CatalogError Catalog := if d.isNull then .ok empty else ofDatum d

/-! ## §5. Documents. -/

/-- The catalog of a document: an object with a list of records under `patterns`, or
nothing at all. -/
def ofDocument (d : Document) : Except CatalogError Catalog :=
  let root := d.store.look d.root
  if root.truth then
    match d.store.look (root.field "patterns") with
    | .list records => do return ⟨← patternsOfRecords d.store 1 records⟩
    | _ => .error (.refused .noPatternList)
  else .ok empty

/-- The catalog of a text that holds a document. -/
def ofYaml (content : String) : Except CatalogError Catalog :=
  match Yaml.read content with
  | .ok d => ofDocument d
  | .error (.value fault) => .error (.badValue fault)
  | .error _ => .error (.refused .notYaml)

end Catalog

end TaintFlow
