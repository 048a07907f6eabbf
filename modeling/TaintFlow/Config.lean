/-
  TaintFlow.Config
  ────────────────
  Configurations: a tree of settings, addressed by keys with dots.

  `Config.merge` lays one tree over another, `get?` and `set` follow the segments of a key.
  Null counts as absent when a setting is asked for.  An attempt to change a setting may fail on its
  way; `Config.attempt` says what it leaves behind.  Settings from a document may be shared: what
  is set below one of them shows in every place where it occurs.
-/
import TaintFlow.Analysis.Options
import TaintFlow.Files.Disk
import TaintFlow.Yaml.File

namespace TaintFlow

/-- A tree of settings, and the groups of the document that some of them come from. -/
structure Config where
  entries : Entries
  store : Store := {}

namespace Config

/-! ## §1. Merging. -/

/-- Lay mappings over one another: where both have a mapping under a key these are merged, and
everywhere else the second one wins. -/
def mergeEntries (base : Entries) : Entries → Entries
  | [] => base
  | (key, .map inner) :: rest =>
    match Assoc.get? key base with
    | some (.map old) => mergeEntries (Assoc.put key (.map (mergeEntries old inner)) base) rest
    | _ => mergeEntries (Assoc.put key (.map inner) base) rest
  | (key, value) :: rest => mergeEntries (Assoc.put key value base) rest

/-- The configuration with other settings laid over it. -/
def merge (c : Config) (overrides : Entries) : Config := { c with entries := mergeEntries c.entries overrides }

/-- The entries of a document with mappings in the place of their labels wherever `base` has a mapping
under the key, down to some levels.  Merging looks into no others. -/
def exposed (s : Store) : (levels : Nat) → (base overrides : Entries) → Entries
  | 0, _, overrides => overrides
  | levels + 1, base, overrides =>
    overrides.map fun (key, value) =>
      match Assoc.get? key base, s.look value with
      | some (.map old), .map inner => (key, .map (exposed s levels old inner))
      | _, _ => (key, value)

/-- How deeply the mappings of the standard configuration are nested. -/
def standardLevels : Nat := 2

/-- Plain settings with those of a document laid over them.  A document that is no mapping changes
nothing. -/
def mergeDocument (base : Entries) (d : Document) : Config :=
  match d.store.look d.root with
  | .map entries => ⟨mergeEntries base (exposed d.store standardLevels base entries), d.store⟩
  | _ => ⟨base, {}⟩

/-! ## §2. Access. -/

/-- The segments of a key. -/
def segments (key : String) : List String := Text.split '.' key

/-- The value at the end of a path; null and whatever is no mapping end it early. -/
def getPath (s : Store) : List String → Datum → Option Datum
  | [], d => some d
  | k :: rest, d =>
    match s.look d with
    | .map entries =>
      match Assoc.get? (.text k) entries with
      | none | some .null => none
      | some inner => getPath s rest inner
    | _ => none

/-- The setting under a key, which may be a label. -/
def get? (c : Config) (key : String) : Option Datum := getPath c.store (segments key) (.map c.entries)

/-- The setting under a key, or the given value. -/
def getD (c : Config) (key : String) (default : Datum) : Datum := (c.get? key).getD default

/-- The value of the setting under a key, or the given value. -/
def valueD (c : Config) (key : String) (default : Datum) : Datum := c.store.look (c.getD key default)

/-- A mapping on the way to a key turns out to be something else. -/
inductive SetError where
  | notAMapping
  deriving DecidableEq, Repr

/-- How a walk along a path ends. -/
inductive WalkEnd where
  | done
  /-- At a label, below which the rest of the path leads. -/
  | below (label : Nat) (rest : List String)
  /-- At a value that is no mapping. -/
  | blocked
  deriving DecidableEq, Repr

/-- The entries that a walk leaves behind, and how it ends. -/
structure Walk where
  entries : Entries
  ending : WalkEnd

/-- The walk as it shows in the mapping around it, where it has the given key. -/
def Walk.within (key : String) (entries : Entries) (w : Walk) : Walk :=
  ⟨Assoc.put (.text key) (.map w.entries) entries, w.ending⟩

/-- Set the value at the end of a path.  A mapping that is missing on the way is made when the walk comes
to its place, and it stays there however the walk ends. -/
def setPath (value : Datum) : List String → Entries → Walk
  | [], entries => ⟨entries, .done⟩
  | [k], entries => ⟨Assoc.put (.text k) value entries, .done⟩
  | k :: rest, entries =>
    match Assoc.get? (.text k) entries with
    | none => (setPath value rest []).within k entries
    | some (.map inner) => (setPath value rest inner).within k entries
    | some (.shared _ label) => ⟨entries, .below label rest⟩
    | some _ => ⟨entries, .blocked⟩

/-- Set the value at the end of a path that leads from a group.  Every further label on the way leaves a
shorter path. -/
def setShared (value : Datum) (s : Store) : (bound label : Nat) → List String → Store × Option SetError
  | 0, _, _ => (s, none)
  | bound + 1, label, path =>
    match s.group label with
    | .map entries =>
      let walk := setPath value path entries
      let after := s.put label (.map walk.entries)
      match walk.ending with
      | .done => (after, none)
      | .below next rest => setShared value after bound next rest
      | .blocked => (after, some .notAMapping)
    | _ => (s, some .notAMapping)

/-- What an attempt to change a setting leaves behind: a configuration in any case, and what stopped it. -/
structure Attempt where
  config : Config
  error : Option SetError

/-- Attempt to change the setting under a key.  The value itself is kept: one that is held elsewhere too is given by
its label, and what is changed below either of the places shows below both. -/
def attempt (c : Config) (key : String) (value : Datum) : Attempt :=
  let walk := setPath value (segments key) c.entries
  let after := { c with entries := walk.entries }
  match walk.ending with
  | .done => ⟨after, none⟩
  | .below label rest =>
    let (store, error) := setShared value c.store (rest.length + 1) label rest
    ⟨{ after with store := store }, error⟩
  | .blocked => ⟨after, some .notAMapping⟩

/-- The configuration with the setting under a key changed. -/
def set (c : Config) (key : String) (value : Datum) : Except SetError Config :=
  let a := c.attempt key value
  match a.error with
  | none => .ok a.config
  | some e => .error e

/-- All settings, with groups in the place of labels. -/
def toDatum (c : Config) : Datum := c.store.expand (.map c.entries)

/-! ## §3. The standard configuration. -/

/-- The settings of a program whose standard catalog is at the given path. -/
def standard (catalogPath : String) : Config :=
  ⟨[(.text "system", .object
      [("name", .text "Slice-Analyzer"), ("version", .text "1.0.0"), ("log_level", .text "INFO"),
       ("output_dir", .text "./reports")]),
    (.text "patterns", .object [("file", .text catalogPath)]),
    (.text "analysis", .object
      [("block_strategy", .text "first"), ("pattern_narrowing", .text "scoped"),
       ("guarded_literal_heuristic", .bool true), ("passthrough_functions", .list [.text "substr"]),
       ("entry_point_prefix", .text "$"), ("echo_sink", .text "echo")]),
    (.text "report", .object [("format", .text "json")])], {}⟩

/-- The catalog file that the configuration names. -/
def catalogFile (c : Config) : Datum := c.valueD "patterns.file" .null

/-- The directory for reports that the configuration names. -/
def outputDirectory (c : Config) : Datum := c.getD "system.output_dir" (.text "./reports")

/-- The name of the program that the configuration gives. -/
def systemName (c : Config) : Datum := c.getD "system.name" (.text "Slice-Analyzer")

/-! ## §4. Configuration files. -/

/-- The files that are looked for where none is named. -/
def standardFiles : List String := ["config.yaml", "config.yml"]

/-- Why a configuration file cannot be used. -/
inductive FileError where
  | notUtf8
  | badValue (fault : Yaml.ValueFault)
  deriving DecidableEq, Repr

/-- Plain settings with those of a file's document laid over them.  A text that is no document changes
nothing. -/
def mergeBytes (base : Entries) (bytes : List UInt8) : Except FileError Config :=
  match Yaml.readSource (.ofBytes bytes) with
  | .ok d => .ok (mergeDocument base d)
  | .error .malformed | .error .unfinished => .ok ⟨base, {}⟩
  | .error .undecodable => .error .notUtf8
  | .error (.value fault) => .error (.badValue fault)

/-- Plain settings with those of a file laid over them.  A file that cannot be read changes nothing. -/
def mergeFile (base : Entries) (d : Disk) (path : String) : Except FileError Config :=
  match d.readBytes path with
  | .ok bytes => mergeBytes base bytes
  | .error _ => .ok ⟨base, {}⟩

/-- The standard configuration with the settings of the named file laid over it, or of the first of the
standard files that is there when none is named. -/
def ofFile (catalogPath : String) (d : Disk) (path : Option String) : Except FileError Config :=
  let base := standard catalogPath
  match path with
  | some path => if d.pathExists path then mergeFile base.entries d path else .ok base
  | none =>
    match standardFiles.find? d.pathExists with
    | some path => mergeFile base.entries d path
    | none => .ok base

end Config

/-! ## §5. Options of an analysis. -/

/-- Why a configuration gives no options. -/
inductive OptionsError where
  | unknownStrategy
  | unknownNarrowing
  | passthroughNotAList
  /-- A text is given by a number with too many digits, or by something that has one in it. -/
  | unwritable
  deriving DecidableEq, Repr

/-- The text of the setting under a key. -/
def Config.textD (c : Config) (key default : String) : Except OptionsError String :=
  match c.store.display? (c.getD key (.text default)) with
  | some s => .ok s
  | none => .error .unwritable

/-- The options that a configuration gives. -/
def Options.ofConfig (c : Config) : Except OptionsError Options := do
  let some strategy := (c.valueD "analysis.block_strategy" (.text "first")).text?.bind BlockStrategy.ofName?
    | throw .unknownStrategy
  let some narrowing := (c.valueD "analysis.pattern_narrowing" (.text "scoped")).text?.bind Narrowing.ofName?
    | throw .unknownNarrowing
  let some passthrough := (c.valueD "analysis.passthrough_functions" (.list [.text "substr"])).members?
    | throw .passthroughNotAList
  return {
    blockStrategy := strategy
    narrowing := narrowing
    guardedLiterals := (c.valueD "analysis.guarded_literal_heuristic" (.bool true)).truth
    passthrough := passthrough
    entryPointSign := ← c.textD "analysis.entry_point_prefix" "$"
    echoSink := ← c.textD "analysis.echo_sink" "echo" }

end TaintFlow
