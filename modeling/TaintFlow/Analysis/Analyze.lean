/-
  TaintFlow.Analysis.Analyze
  ──────────────────────────
  The analysis of a whole tree.

  A tree given as a value is loaded first, and what was degraded on the way is counted in
  the conclusion.  Trees in which too many conditionals are nested are refused.
-/
import TaintFlow.Analysis.Execute
import TaintFlow.Syntax.Load

namespace TaintFlow

/-! ## §1. Depth. -/

mutual

/-- How deeply the conditionals are nested that a statement executes. -/
def condDepth (o : Options) : Node → Nat
  | .cond _ body alternate =>
    1 + max (condDepthOf o .branch false body) (condDepthAlternate o alternate)
  | .loop _ body => condDepthOf o .loop false body
  | .block children => condDepthAll o children
  | _ => 0

/-- The depth of the second branch of a conditional. -/
def condDepthAlternate (o : Options) : Option (List Node) → Nat
  | none => 0
  | some body => condDepthOf o .branch false body

/-- The depth of statements in a row. -/
def condDepthAll (o : Options) : List Node → Nat
  | [] => 0
  | n :: rest => max (condDepth o n) (condDepthAll o rest)

/-- The depth of the statements of a body that are executed. -/
def condDepthOf (o : Options) (c : Context) (started : Bool) : List Node → Nat
  | [] => 0
  | n :: rest =>
    if o.executes c started n then max (condDepth o n) (condDepthOf o c true rest)
    else condDepthOf o c started rest

end

/-! ## §2. Conclusions. -/

/-- The verdict of a finished analysis, with the counts of what was given up on. -/
structure Conclusion where
  verdict : Verdict
  diagnostics : Tally
  deriving DecidableEq, Repr

/-- The conclusion of a run. -/
def Run.conclude (s : Run) : Conclusion := ⟨s.verdict, s.diagnostics⟩

/-- Why there is no conclusion. -/
inductive AnalysisError where
  | load (cause : Syntax.LoadError)
  | tooDeep
  deriving DecidableEq, Repr

/-- The wording of the refusal to analyse a tree. -/
def tooDeepMessage : String := "切片嵌套过深，分析中止"

/-- The event that ends an analysis. -/
def Verdict.event (v : Verdict) : Event :=
  if v.vulnerable then .vulnerable v.violatedPatterns else .safe

/-! ## §3. Analysis. -/

/-- The final state for the statements of a tree. -/
def Program.run (o : Options) (catalog : Catalog) (loading : Tally) (p : Program) : Run :=
  executeAll o p.children { Run.start catalog with diagnostics := Tally.empty.merge "ast_" loading.toList }

/-- The conclusion about a tree whose loading left the given counts, and the events in order. -/
def Program.analyze (limits : Limits) (o : Options) (catalog : Catalog) (loading : Tally) (p : Program) :
    Except AnalysisError Conclusion × List Event :=
  if condDepthAll o p.children ≤ limits.cond o.blockStrategy then
    let s := p.run o catalog loading
    (.ok s.conclude, s.events.reverse ++ [s.verdict.event])
  else (.error .tooDeep, [])

/-- The conclusion about the tree of a value, and the events in order. -/
def analyze (limits : Limits) (o : Options) (catalog : Catalog) (data : Datum) :
    Except AnalysisError Conclusion × List Event :=
  let (loaded, notes) := Syntax.load limits data
  match loaded with
  | .error e => (.error (.load e), notes.events)
  | .ok p =>
    let (result, events) := p.analyze limits o catalog notes.diagnostics
    (result, notes.events ++ events)

/-- A value that is loaded is analysed with the counts of its loading. -/
theorem analyze_of_load {limits : Limits} {o : Options} {catalog : Catalog} {data : Datum} {p : Program}
    (h : (Syntax.load limits data).1 = .ok p) :
    (analyze limits o catalog data).1 = (p.analyze limits o catalog (Syntax.load limits data).2.diagnostics).1 := by
  simp only [analyze, h]

theorem analyze_of_load_error {limits : Limits} {o : Options} {catalog : Catalog} {data : Datum}
    {e : Syntax.LoadError} (h : (Syntax.load limits data).1 = .error e) :
    (analyze limits o catalog data).1 = .error (.load e) := by
  simp only [analyze, h]

end TaintFlow
