/-
  TaintFlow.Analysis.Run
  ──────────────────────
  The state of an analysis and the elementary changes to it.

  A run knows the environment, the patterns under consideration, the literals that guard
  the present place (the innermost first), the verdict so far, the counts of what was
  given up on, and the events to be logged (the newest first).
-/
import TaintFlow.Analysis.Env
import TaintFlow.Analysis.Options
import TaintFlow.Log.Event
import TaintFlow.Pattern.Catalog
import TaintFlow.Tally

namespace TaintFlow

/-! ## §1. Verdicts. -/

/-- The names of the patterns that a piece of data may violate. -/
abbrev Taint := NameSet

/-- What the analysis has found.  A slice that is vulnerable stays so; a pattern that is
violated several times is listed as often. -/
structure Verdict where
  vulnerable : Bool := false
  violatedPatterns : List String := []
  sanitizersApplied : List String := []
  loopIterations : Nat := 0
  deriving DecidableEq, Repr

namespace Verdict

/-- Note that a pattern is violated. -/
def markVulnerable (v : Verdict) (pattern : String) : Verdict :=
  { v with vulnerable := true, violatedPatterns := v.violatedPatterns ++ [pattern] }

/-- Note that a sanitizer was applied. -/
def recordSanitizer (v : Verdict) (name : String) : Verdict :=
  { v with sanitizersApplied := v.sanitizersApplied ++ [name] }

/-- Count iterations of a loop. -/
def addIterations (v : Verdict) (n : Nat) : Verdict :=
  { v with loopIterations := v.loopIterations + n }

end Verdict

/-! ## §2. Runs. -/

/-- The state of an analysis. -/
structure Run where
  active : List Pattern
  env : Env String := Env.empty
  guards : List String := []
  verdict : Verdict := {}
  diagnostics : Tally := {}
  events : List Event := []

namespace Run

/-- The state before the first statement: every pattern of the catalog is considered. -/
def start (catalog : Catalog) : Run := { active := catalog.patterns }

/-- The names of the patterns under consideration. -/
def activeNames (s : Run) : Taint := .ofList (s.active.map (·.name))

/-- The literal that guards the present place. -/
def guard? (s : Run) : Option String := s.guards.head?

/-- Log an event. -/
def log (s : Run) (e : Event) : Run := { s with events := e :: s.events }

/-- Count that a detail was given up on. -/
def fallback (s : Run) (reason detail : String) : Run :=
  { s with diagnostics := s.diagnostics.record reason }.log (.fallback reason detail)

/-- Enter a place that a literal guards. -/
def enter (s : Run) : Option String → Run
  | none => s
  | some literal => { s with guards := literal :: s.guards }

/-- Leave a place that a literal guards. -/
def leave (s : Run) : Option String → Run
  | none => s
  | some _ => { s with guards := s.guards.tail }

/-- Read a variable, registering it. -/
def read (s : Run) (x : String) : Taint × Run :=
  (s.env.taintOf x, { s with env := s.env.declare x })

/-- The patterns under consideration that have an entry point.  In legacy mode only they
stay under consideration. -/
def queryEntryPoint (s : Run) (mode : Narrowing) (entryPoint : String) : List Pattern × Run :=
  let matched := Catalog.withEntryPoint entryPoint s.active
  match mode with
  | .scoped => (matched, s)
  | .legacy => (matched, { s with active := matched })

end Run

end TaintFlow
