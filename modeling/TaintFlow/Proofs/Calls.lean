/-
  TaintFlow.Proofs.Calls
  ──────────────────────
  **What a call does to its arguments, and what it reports about them.**

  A function may be a sink of some patterns and a sanitizer of others, and a variable may stand
  among its arguments more than once.  The arguments reach the sinks with the marks they have
  before the call, and they are cleaned behind all sinks:

    • `Node.variablesAmong` — the variables among the arguments, as often as they stand there,
    • `Run.Cleans` — the call is one that cleans its arguments,
    • `verdict_call` — the reports and the record of a call, from the state before it,
    • `taintOf_call` — the taints behind a call,
    • `call_reports_before_cleaning` — a call from the outside.
-/
import TaintFlow.Proofs.Locality
import TaintFlow.Proofs.Reports

namespace TaintFlow

/-! ## §1. Arguments. -/

/-- The name of a variable, if the node is a variable that has one. -/
def Node.variable? : Node → Option String
  | .var name => name
  | _ => none

/-- The variables that stand among the arguments, in order and with repetitions. -/
def Node.variablesAmong (arguments : List Node) : List String := arguments.filterMap Node.variable?

theorem namedArguments_fst (arguments : List Node) (s : Run) :
    (Run.namedArguments arguments s).1 = Node.variablesAmong arguments := by
  induction arguments generalizing s with
  | nil => rfl
  | cons n rest ih =>
    match n with
    | .var (some x) => exact congrArg (x :: ·) (ih s)
    | .var none => exact ih (s.fallback "variable_without_name" "")
    | .unknown .. | .string _ | .offsetLookup .. | .bin .. | .call .. | .encapsed _ | .assign .. | .echo _
    | .cond .. | .loop .. | .block _ => exact ih s

/-- Collecting the arguments reports nothing. -/
theorem verdict_namedArguments (arguments : List Node) (s : Run) :
    (Run.namedArguments arguments s).2.verdict = s.verdict := by
  induction arguments generalizing s with
  | nil => rfl
  | cons n rest ih =>
    match n with
    | .var (some x) => exact ih s
    | .var none => exact ih (s.fallback "variable_without_name" "")
    | .unknown .. | .string _ | .offsetLookup .. | .bin .. | .call .. | .encapsed _ | .assign .. | .echo _
    | .cond .. | .loop .. | .block _ => exact ih s

theorem mem_variablesAmong {arguments : List Node} {x : String} :
    x ∈ Node.variablesAmong arguments ↔ .var (some x) ∈ arguments := by
  rw [← namedArguments_fst arguments { active := [] }, mem_namedArguments]

/-! ## §2. Sinks and sanitizers. -/

/-- A call of the function cleans the variables: it is a sanitizer of some pattern under consideration, and there is
something to clean. -/
def Run.Cleans (s : Run) (function : String) (names : List String) : Prop :=
  (∃ p ∈ s.active, function ∈ p.sanitizers) ∧ names ≠ []

theorem withSanitizer_eq_nil_iff {function : String} {patterns : List Pattern} :
    Catalog.withSanitizer function patterns = [] ↔ ¬ ∃ p ∈ patterns, function ∈ p.sanitizers := by
  simp [Catalog.withSanitizer, List.filter_eq_nil_iff]

theorem Run.cleans_iff {s : Run} {function : String} {names : List String} :
    s.Cleans function names ↔ ¬ (Catalog.withSanitizer function s.active = [] ∨ names = []) := by
  unfold Run.Cleans
  rw [withSanitizer_eq_nil_iff, not_or, not_not]

instance (s : Run) (function : String) (names : List String) : Decidable (s.Cleans function names) :=
  inferInstanceAs (Decidable (_ ∧ _))

/-- The names of the patterns that a call reports, pattern by pattern and argument by argument. -/
def Run.callReports (s : Run) (function : String) (names : List String) : List String :=
  (s.active.filter fun p => function ∈ p.sinks).flatMap fun p =>
    (names.filter fun x => p.name ∈ s.env.taintOf x).map fun _ => p.name

theorem map_fst_sinkReports (s : Run) (function : String) (names : List String) :
    (sinkReports function s.env names (Catalog.withSink function s.active)).map (·.1) = s.callReports function names := by
  unfold sinkReports argumentReports Run.callReports Catalog.withSink
  rw [List.map_flatMap]
  simp only [List.map_map]
  rfl

/-- **The verdict behind a call.**  All reports come from the state before it. -/
theorem verdict_call (s : Run) (function : String) (arguments : List Node) :
    (s.call function arguments).verdict.violatedPatterns
        = s.verdict.violatedPatterns ++ s.callReports function (Node.variablesAmong arguments) ∧
      (s.call function arguments).verdict.sanitizersApplied
        = s.verdict.sanitizersApplied ++
          if s.Cleans function (Node.variablesAmong arguments) then [function] else [] := by
  by_cases hnone : Catalog.withSink function s.active = [] ∧ Catalog.withSanitizer function s.active = []
  · -- no sink, so no report; no sanitizer, so nothing is cleaned
    have hreports : s.callReports function (Node.variablesAmong arguments) = [] := by
      rw [← map_fst_sinkReports, hnone.1]
      rfl
    have hcleans : ¬ s.Cleans function (Node.variablesAmong arguments) := fun h =>
      Run.cleans_iff.1 h (.inl hnone.2)
    rw [call_of_none hnone, hreports, if_neg hcleans]
    simp
  · have hverdict := verdict_namedArguments arguments s
    rw [call_of_some hnone, foldl_checkSink, namedArguments_fst, env_namedArguments, ← map_fst_sinkReports]
    by_cases hcleans : s.Cleans function (Node.variablesAmong arguments)
    · rw [if_pos hcleans, if_neg (Run.cleans_iff.1 hcleans)]
      simp [Run.emit, Run.withEnv, Run.applySanitizer, Verdict.recordSanitizer, Output.ofReports, hverdict]
    · rw [if_neg hcleans, if_pos (not_not.1 (mt Run.cleans_iff.2 hcleans))]
      simp [Run.emit, Run.withEnv, Output.ofReports, hverdict]

/-- **The taints behind a call.** -/
theorem taintOf_call (s : Run) (function : String) (arguments : List Node) (x : String) :
    (s.call function arguments).env.taintOf x
      = if s.Cleans function (Node.variablesAmong arguments) ∧ x ∈ Node.variablesAmong arguments then ∅
        else s.env.taintOf x := by
  by_cases hnone : Catalog.withSink function s.active = [] ∧ Catalog.withSanitizer function s.active = []
  · rw [call_of_none hnone, if_neg fun h => Run.cleans_iff.1 h.1 (.inl hnone.2)]
  · -- the sinks only register the arguments
    have hregistered : ∀ names : List String,
        (if Catalog.withSink function s.active = [] then s.env else s.env.declareAll names).taintOf x
          = s.env.taintOf x := by
      intro names
      split
      · rfl
      · exact s.env.taintOf_declareAll names x
    rw [call_of_some hnone, foldl_checkSink, namedArguments_fst, env_namedArguments]
    by_cases hcleans : s.Cleans function (Node.variablesAmong arguments)
    · rw [if_neg (Run.cleans_iff.1 hcleans)]
      show (List.foldl Env.sanitize _ _).taintOf x = _
      simp only [Env.taintOf_foldl_sanitize, hcleans, true_and]
      exact if_congr Iff.rfl rfl (hregistered _)
    · rw [if_pos (not_not.1 (mt Run.cleans_iff.2 hcleans))]
      exact (hregistered _).trans (if_neg fun h => hcleans h.1).symm

/-- A variable that a call cleans is registered by it. -/
theorem mem_names_call_of_cleans {s : Run} {function : String} {arguments : List Node}
    (h : s.Cleans function (Node.variablesAmong arguments)) {x : String} (hx : x ∈ Node.variablesAmong arguments) :
    x ∈ (s.call function arguments).env.names := by
  have hkeeps := Run.cleans_iff.1 h
  rw [call_of_some fun hnone => hkeeps (.inl hnone.2), namedArguments_fst, if_neg hkeeps]
  exact Env.mem_names_foldl_sanitize.2 (.inl hx)

/-! ## §3. Calls from the outside. -/

/-- **A call reports before it cleans.**  A function that does not hand on its first argument returns clean data.  What
it reports is read off the state before the call: for each pattern that has the function for a sink, in order, the name
of the pattern once for each argument that carries it.  Only then, if the function is a sanitizer of some pattern and
has arguments to clean, are these cleaned, and the function is recorded once; otherwise no taint changes.  Other
variables are neither registered nor changed. -/
theorem call_reports_before_cleaning (o : Options) (function : String) (hpass : o.passesThrough function = false)
    (arguments : List Node) (s : Run) :
    let names := Node.variablesAmong arguments
    let result := evaluate o (.call (some function) arguments) s
    let after := result.2
    result.1 = ∅ ∧
      after.verdict.violatedPatterns = s.verdict.violatedPatterns ++
        ((s.active.filter fun p => function ∈ p.sinks).flatMap fun p =>
          (names.filter fun x => p.name ∈ s.env.taintOf x).map fun _ => p.name) ∧
      (s.Cleans function names → (∀ x ∈ names, x ∈ after.env.names ∧ after.env.taintOf x = ∅) ∧
        after.verdict.sanitizersApplied = s.verdict.sanitizersApplied ++ [function]) ∧
      (¬ s.Cleans function names → (∀ x, after.env.taintOf x = s.env.taintOf x) ∧
        after.verdict.sanitizersApplied = s.verdict.sanitizersApplied) ∧
      ∀ x ∉ names, after.env.bindings.get? x = s.env.bindings.get? x := by
  intro names result after
  have hresult : result = (∅, s.call function arguments) := congrFun (evaluate_call hpass arguments) s
  have hafter : after = s.call function arguments := congrArg Prod.snd hresult
  obtain ⟨hviolated, hsanitizers⟩ := verdict_call s function arguments
  rw [hafter]
  refine ⟨congrArg Prod.fst hresult, hviolated, fun hcleans => ?_, fun hkeeps => ?_, fun x hx => ?_⟩
  · refine ⟨fun x hx => ⟨mem_names_call_of_cleans hcleans hx, ?_⟩, ?_⟩
    · rw [taintOf_call, if_pos ⟨hcleans, hx⟩]
    · rw [hsanitizers, if_pos hcleans]
  · refine ⟨fun x => ?_, ?_⟩
    · rw [taintOf_call, if_neg fun h => hkeeps h.1]
    · rw [hsanitizers, if_neg hkeeps, List.append_nil]
  · exact confined_call (fun y hy => mem_variablesAmong.2 hy) function s x hx

/-- Two patterns with a sink in common, which cleans for the second one. -/
def sharedSink : List Pattern := [.build "XSS" [] [] ["render"], .build "SQL" [] ["render"] ["query", "render"]]

/-- A state in which input has reached two variables and not a third. -/
def twoInputs : Run :=
  { active := sharedSink,
    env := .ofList [("a", .ofList ["SQL", "XSS"]), ("b", .ofList ["SQL"]), ("c", .ofList ["XSS"])] }

theorem twoInputs_render_reports_before_cleaning :
    let arguments : List Node := [.var (some "a"), .string "x", .var (some "b"), .var none, .var (some "a")]
    let after := (evaluate {} (.call (some "render") arguments) twoInputs).2
    ({} : Options).passesThrough "render" = false ∧
      after.verdict.violatedPatterns = ["XSS", "XSS", "SQL", "SQL", "SQL"] ∧
      after.verdict.sanitizersApplied = ["render"] ∧
      after.env.taintOf "a" = ∅ ∧ after.env.taintOf "b" = ∅ ∧ after.env.taintOf "c" = .ofList ["XSS"] := by
  intro arguments after
  obtain ⟨-, hviolated, hcleans, -, hothers⟩ :=
    call_reports_before_cleaning {} "render" (by decide +kernel) arguments twoInputs
  obtain ⟨hclean, hrecord⟩ := hcleans (by decide +kernel)
  refine ⟨by decide +kernel, hviolated.trans (by decide +kernel), hrecord, ?_, ?_, ?_⟩
  · exact (hclean "a" (by decide +kernel)).2
  · exact (hclean "b" (by decide +kernel)).2
  · exact Env.taintOf_of_get?_eq (hothers "c" (by decide +kernel))

end TaintFlow
