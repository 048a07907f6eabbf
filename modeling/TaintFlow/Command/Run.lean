/-
  TaintFlow.Command.Run
  ─────────────────────
  A run of the program.

  A run depends on the arguments, the clock, the files and the room for nested calls, and comes to
  what is said, the files afterwards, and the way in which it ends.  What is said before an error
  stays said.
-/
import TaintFlow.Command.Arguments
import TaintFlow.Command.Message
import TaintFlow.Pattern.Bundled
import TaintFlow.Pattern.File

namespace TaintFlow.Command

/-! ## §1. Endings. -/

/-- What stops a run that has nothing more to say. -/
inductive RunError where
  | config (cause : Config.FileError)
  | setting (cause : Config.SetError)
  | catalog (cause : CatalogError)
  | options (cause : OptionsError)
  | target (cause : DiskFault)
  | scan (cause : ScanError)
  | report (cause : ReportError)
  deriving DecidableEq, Repr

/-- The way in which a run ends. -/
inductive Ending where
  | exit (code : Nat)
  /-- The service is to be started on a port of this machine. -/
  | serve (port : Option Int) (debug : Bool)
  | stopped (cause : RunError)
  deriving DecidableEq, Repr

/-- What a run comes to. -/
structure Course where
  messages : List Message := []
  disk : Disk
  ending : Ending

/-- The exit code of a run that cannot do its work. -/
def exitFailed : Nat := 1

/-- The exit code of a run that found what it was asked to fail on, and of a command line that cannot be
read. -/
def exitRefused : Nat := 2

/-! ## §2. Settings. -/

/-- The configuration with a setting changed, if the command line asks for it. -/
def withSetting (key : String) (value : Option String) (c : Config) : Except RunError Config :=
  match value with
  | none => .ok c
  | some v => (c.set key (.text v)).mapError .setting

/-- The configuration of a run: the standard one, the file, and the command line. -/
def configOf (home : String) (a : Arguments) (d : Disk) : Except RunError Config := do
  let c ← (Config.ofFile (Bundled.standardPath home) d (some a.config)).mapError .config
  let c ← withSetting "patterns.file" (a.patterns.filter fun p => p ≠ "") c
  let c ← withSetting "analysis.block_strategy" (a.blockStrategy.map BlockStrategy.name) c
  withSetting "analysis.pattern_narrowing" (if a.legacyNarrowing then some Narrowing.legacy.name else none) c

/-- The catalog that a configuration names. -/
def catalogOf (c : Config) (d : Disk) : Except CatalogError Catalog := (Catalog.loadSetting d c.catalogFile).map (·.1)

/-! ## §3. Runs. -/

/-- Write the reports that the command line asks for. -/
def reportOn (a : Arguments) (config : Config) (clock : Clock) (s : Scan) : Report.Writing (List Message) :=
  match a.output.filter fun o => o ≠ "" with
  | none => return []
  | some directory => do
    return [.reportSaved (← Report.generate config clock (s.results clock) directory a.format)]

/-- The exit code of a run that has looked at every slice. -/
def exitCode (a : Arguments) (s : Scan) : Nat :=
  if a.failOnVulnerable && s.vulnerableCount > 0 then exitRefused else 0

/-- Report on a scan. -/
def conclude (a : Arguments) (config : Config) (clock : Clock) (s : Scan) (d : Disk) : Course :=
  match (reportOn a config clock s).run d with
  | (.ok saved, after) => ⟨scanMessages s ++ saved, after, .exit (exitCode a s)⟩
  | (.error cause, after) => ⟨scanMessages s, after, .stopped (.report cause)⟩

/-- Scan a target. -/
def scanTarget (limits : Limits) (a : Arguments) (config : Config) (clock : Clock) (target : String) (d : Disk) :
    Course :=
  if d.resolve (Path.normalized target) matches .error .nameTooLong then ⟨[], d, .stopped (.target .nameTooLong)⟩
  else if !d.pathExists (Path.normalized target) then ⟨[.targetMissing target], d, .exit exitFailed⟩
  else
    match catalogOf config d with
    | .error (.refused why) => ⟨[.catalogFailed why], d, .exit exitFailed⟩
    | .error cause => ⟨[], d, .stopped (.catalog cause)⟩
    | .ok catalog =>
      match Options.ofConfig config with
      | .error cause => ⟨[], d, .stopped (.options cause)⟩
      | .ok o =>
        match scan limits o catalog d (Path.normalized target) with
        | .error cause => ⟨[], d, .stopped (.scan cause)⟩
        | .ok s => conclude a config clock s d

/-- Get the service ready, which needs a catalog and options. -/
def serve (a : Arguments) (config : Config) (d : Disk) : Except RunError Ending := do
  let _ ← (catalogOf config d).mapError .catalog
  let _ ← (Options.ofConfig config).mapError .options
  return .serve a.port a.verbose

/-- A run with the given arguments. -/
def runWith (limits : Limits) (clock : Clock) (home : String) (a : Arguments) (d : Disk) : Course :=
  match configOf home a d with
  | .error cause => ⟨[], d, .stopped cause⟩
  | .ok config =>
    if a.web then
      match serve a config d with
      | .ok ending => ⟨[], d, ending⟩
      | .error cause => ⟨[], d, .stopped cause⟩
    else
      let course : Course := match a.target.filter fun t => t ≠ "" with
        | none => ⟨[.help, .noTarget], d, .exit exitFailed⟩
        | some target => scanTarget limits a config clock target d
      { course with messages := .banner :: course.messages }

/-- A run of the program. -/
def run (limits : Limits) (clock : Clock) (home : String) (argv : List String) (d : Disk) : Course :=
  match Arguments.parse argv with
  | .error .help => ⟨[.help], d, .exit 0⟩
  | .error .usage => ⟨[], d, .exit exitRefused⟩
  | .ok a => runWith limits clock home a d

end TaintFlow.Command
