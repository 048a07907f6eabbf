/-
  TaintFlow.Proofs.Reports
  ────────────────────────
  **What is reported at a sink.**

  A call checks its named arguments pattern by pattern and, for each pattern, one by one.
  Reading an argument registers it and changes no taint, so all reports of a call can be read
  off the environment before it:

    • `sinkReports` — an argument that carries the name of a pattern, for every such pair, in
      the order in which they are reported,
    • `foldl_checkSink` — checking sinks registers the arguments, adds these reports, and does
      nothing else,
    • `echoLookup_eq` — printing an entry point adds the reports of the patterns it leads to.
-/
import TaintFlow.Proofs.Frame

namespace TaintFlow

/-! ## §1. Output in parts. -/

namespace Run

theorem emit_emit (s : Run) (c d : Output) : (s.emit c).emit d = s.emit (c.append d) := emit_adopt_emit s s s c d

theorem withEnv_emit (s : Run) (d : Output) (e : Env String) : (s.emit d).withEnv e = (s.withEnv e).emit d := rfl

end Run

/-- The output of reports in order: for each one the name of the violated pattern, and the event. -/
def Output.ofReports (reports : List (String × Event)) : Output where
  violated := reports.map (·.1)
  events := (reports.map (·.2)).reverse

theorem Output.ofReports_append (a b : List (String × Event)) :
    Output.ofReports (a ++ b) = (Output.ofReports a).append (Output.ofReports b) := by
  simp [ofReports, append]

/-! ## §2. Registered arguments. -/

/-- The environment with all of the variables registered. -/
def Env.declareAll (e : Env String) (names : List String) : Env String := names.foldl Env.declare e

theorem Env.taintOf_declareAll (e : Env String) (names : List String) (x : String) :
    (e.declareAll names).taintOf x = e.taintOf x := by
  induction names generalizing e with
  | nil => rfl
  | cons y names ih =>
    show ((e.declare y).declareAll names).taintOf x = _
    rw [ih, Env.taintOf_declare]

theorem Env.mem_names_declareAll {e : Env String} {names : List String} {x : String} :
    x ∈ (e.declareAll names).names ↔ x ∈ names ∨ x ∈ e.names := by
  induction names generalizing e with
  | nil => simp [declareAll]
  | cons y names ih =>
    show x ∈ ((e.declare y).declareAll names).names ↔ _
    rw [ih, Env.mem_names_declare, List.mem_cons]
    tauto

/-- Variables that are there already are not registered again. -/
theorem Env.declareAll_of_subset {e : Env String} {names : List String} (h : ∀ x ∈ names, x ∈ e.names) :
    e.declareAll names = e := by
  induction names with
  | nil => rfl
  | cons y names ih =>
    have hy : e.declare y = e := if_pos (Env.mem_names_iff.1 (h y List.mem_cons_self))
    show (e.declare y).declareAll names = e
    rw [hy]
    exact ih fun x hx => h x (List.mem_cons_of_mem y hx)

theorem Env.declareAll_declareAll (e : Env String) (names : List String) :
    (e.declareAll names).declareAll names = e.declareAll names :=
  Env.declareAll_of_subset fun _ hx => Env.mem_names_declareAll.2 (.inl hx)

/-! ## §3. Sinks. -/

/-- The reports about the arguments of a sink of one pattern. -/
def argumentReports (function : String) (e : Env String) (names : List String) (p : Pattern) : List (String × Event) :=
  (names.filter fun x => p.name ∈ e.taintOf x).map fun x => (p.name, .taintedCall x function p.name)

/-- The reports of a call, pattern by pattern and argument by argument. -/
def sinkReports (function : String) (e : Env String) (names : List String) (sinks : List Pattern) :
    List (String × Event) :=
  sinks.flatMap (argumentReports function e names)

/-- The reports depend on the taints only. -/
theorem argumentReports_declareAll (function : String) (e : Env String) (declared names : List String) (p : Pattern) :
    argumentReports function (e.declareAll declared) names p = argumentReports function e names p := by
  simp only [argumentReports, Env.taintOf_declareAll]

theorem checkArgument_eq (function : String) (p : Pattern) (s : Run) (x : String) :
    Run.checkArgument function p s x
      = (s.withEnv (s.env.declare x)).emit (.ofReports (argumentReports function s.env [x] p)) := by
  show (if p.name ∈ s.env.taintOf x then _ else _) = _
  by_cases h : p.name ∈ s.env.taintOf x
  · have hreports : argumentReports function s.env [x] p = [(p.name, .taintedCall x function p.name)] := by
      simp [argumentReports, h]
    rw [if_pos h, Run.report_eq_emit, hreports]
    rfl
  · have hreports : argumentReports function s.env [x] p = [] := by
      simp [argumentReports, h]
    rw [if_neg h, hreports]
    exact (Run.emit_nothing _).symm

/-- **One sink**: all arguments are registered, and those that carry the pattern's name are reported. -/
theorem checkSink_eq (function : String) (names : List String) (s : Run) (p : Pattern) :
    Run.checkSink function names s p
      = (s.withEnv (s.env.declareAll names)).emit (.ofReports (argumentReports function s.env names p)) := by
  induction names generalizing s with
  | nil => exact (Run.emit_nothing s).symm
  | cons x names ih =>
    have hsplit : argumentReports function s.env (x :: names) p
        = argumentReports function s.env [x] p ++ argumentReports function s.env names p := by
      by_cases h : p.name ∈ s.env.taintOf x <;> simp [argumentReports, h]
    have hsame : argumentReports function (s.env.declare x) names p = argumentReports function s.env names p :=
      argumentReports_declareAll function s.env [x] names p
    show Run.checkSink function names (Run.checkArgument function p s x) p = _
    rw [checkArgument_eq, ih, hsplit, Output.ofReports_append, ← Run.emit_emit, Run.withEnv_emit]
    show Run.emit _ (.ofReports (argumentReports function (s.env.declare x) names p)) = _
    rw [hsame]
    rfl

/-- **All sinks of a call**: the arguments are registered if there is a sink at all, and what is reported
depends on the environment before the call only. -/
theorem foldl_checkSink (function : String) (names : List String) (sinks : List Pattern) (s : Run) :
    sinks.foldl (Run.checkSink function names) s
      = (s.withEnv (if sinks = [] then s.env else s.env.declareAll names)).emit
          (.ofReports (sinkReports function s.env names sinks)) := by
  induction sinks generalizing s with
  | nil => exact (Run.emit_nothing s).symm
  | cons p sinks ih =>
    -- behind the first sink nothing is left to register, and the taints are what they were
    have henv : (if sinks = [] then s.env.declareAll names else (s.env.declareAll names).declareAll names)
        = s.env.declareAll names := by
      rw [Env.declareAll_declareAll, ite_self]
    have hreports : sinkReports function (s.env.declareAll names) names sinks = sinkReports function s.env names sinks := by
      unfold sinkReports
      refine List.flatMap_congr fun q _ => ?_
      exact argumentReports_declareAll function s.env names names q
    have hsplit : sinkReports function s.env names (p :: sinks)
        = argumentReports function s.env names p ++ sinkReports function s.env names sinks := List.flatMap_cons
    rw [List.foldl_cons, checkSink_eq, ih, hsplit, Output.ofReports_append, ← Run.emit_emit, Run.withEnv_emit,
      if_neg (List.cons_ne_nil p sinks)]
    show Run.emit (Run.emit (s.withEnv (if sinks = [] then s.env.declareAll names
        else (s.env.declareAll names).declareAll names)) _)
      (.ofReports (sinkReports function (s.env.declareAll names) names sinks)) = _
    rw [henv, hreports]

/-! ## §4. Printing. -/

/-- The reports about printing an entry point that leads to the patterns. -/
def outputReports (o : Options) (name : Option String) (patterns : List Pattern) : List (String × Event) :=
  (patterns.filter fun p => o.echoSink ∈ p.sinks).map fun p => (p.name, .taintedOutput (name.getD "") p.name)

theorem echoLookup_eq (o : Options) (name : Option String) (s : Run) :
    s.echoLookup o name
      = (s.lookupPatterns o name).2.emit (.ofReports (outputReports o name (s.lookupPatterns o name).1)) := by
  unfold Run.echoLookup
  generalize s.lookupPatterns o name = found
  obtain ⟨patterns, s⟩ := found
  simp only [Run.report_eq_emit]
  induction patterns generalizing s with
  | nil => exact (Run.emit_nothing s).symm
  | cons p patterns ih =>
    rw [List.foldl_cons]
    by_cases h : o.echoSink ∈ p.sinks
    · have hsplit : outputReports o name (p :: patterns)
          = [(p.name, .taintedOutput (name.getD "") p.name)] ++ outputReports o name patterns := by
        simp [outputReports, h]
      rw [if_pos h, ih, hsplit, Output.ofReports_append, ← Run.emit_emit]
      rfl
    · have hsplit : outputReports o name (p :: patterns) = outputReports o name patterns := by
        simp [outputReports, h]
      rw [if_neg h, ih, hsplit]

end TaintFlow
