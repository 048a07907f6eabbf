/-
  TaintFlow.Proofs.CatalogOrder
  ─────────────────────────────
  **The order of a catalog shows in the order of reports only.**

  Two analyses of one program under the same patterns in different order are kept side by side.
  Queries answer with the same patterns in different order, so the sinks of a call are checked
  and the patterns of a printed entry point are reported in different order; but nothing that an
  analysis goes on with depends on which pattern came first:

    • `Reordered.coupling` — rearranged patterns, the same environment down to the order of its
      variables, and output that is the same up to the order of violations,
    • `Reordered.couples_call` — what is reported at the sinks of a call is read off the
      environment before it, so the order in which they are checked does not matter,
    • `Reordered.couples_evaluate`, `Reordered.couples_execute` — expressions and statements, in
      both narrowing modes: narrowing keeps rearranged patterns rearranged.
-/
import TaintFlow.Proofs.Reports
import TaintFlow.Proofs.View

namespace TaintFlow

/-! ## §1. The same up to the order of reports. -/

/-- The outputs list the same violations, each as often, and agree in all else. -/
structure Output.SameUpToReports (d e : Output) : Prop where
  violated : d.violated.Perm e.violated
  sanitizers : d.sanitizers = e.sanitizers
  iterations : d.iterations = e.iterations
  reasons : d.reasons = e.reasons

namespace Output.SameUpToReports

theorem refl (d : Output) : d.SameUpToReports d := ⟨.refl _, rfl, rfl, rfl⟩

theorem append {c c' d d' : Output} (hc : c.SameUpToReports c') (hd : d.SameUpToReports d') :
    (c.append d).SameUpToReports (c'.append d') where
  violated := hc.violated.append hd.violated
  sanitizers := congrArg₂ (· ++ ·) hc.sanitizers hd.sanitizers
  iterations := congrArg₂ (· + ·) hc.iterations hd.iterations
  reasons := congrArg₂ (· ++ ·) hc.reasons hd.reasons

theorem ofReports {a b : List (String × Event)} (h : a.Perm b) :
    (Output.ofReports a).SameUpToReports (Output.ofReports b) :=
  ⟨h.map _, rfl, rfl, rfl⟩

end Output.SameUpToReports

/-- The conclusions list the same violations, each as often, and agree in all else. -/
structure Conclusion.SameUpToReports (r r' : Conclusion) : Prop where
  violated : r.verdict.violatedPatterns.Perm r'.verdict.violatedPatterns
  vulnerable : r.verdict.vulnerable = r'.verdict.vulnerable
  sanitizers : r.verdict.sanitizersApplied = r'.verdict.sanitizersApplied
  iterations : r.verdict.loopIterations = r'.verdict.loopIterations
  diagnostics : r.diagnostics = r'.diagnostics

/-- The runs have the same environment, with its variables in the same order, the same patterns under
consideration in some order, and conclusions that differ in the order of violations only. -/
structure Run.SameUpToReports (s t : Run) : Prop where
  env : s.env = t.env
  guards : s.guards = t.guards
  active : s.active.Perm t.active
  conclusion : s.conclude.SameUpToReports t.conclude

/-- Both analyses fail for the same reason, or both come to conclusions that differ in the order of violations
only. -/
def SameResults : Except AnalysisError Conclusion → Except AnalysisError Conclusion → Prop
  | .ok r, .ok r' => r.SameUpToReports r'
  | .error e, .error e' => e = e'
  | _, _ => False

/-! ## §2. The coupling. -/

namespace Reordered

theorem join_congr {a a' b b' : Env String} (ha : a = a') (hb : b = b') : a.join b = a'.join b' :=
  congrArg₂ Env.join ha hb

/-- **The same patterns in some order, the same environment, and the same output up to the order of violations.** -/
def coupling : Coupling where
  active := List.Perm
  env := Eq
  output := Output.SameUpToReports
  env_join := join_congr
  output_refl := Output.SameUpToReports.refl
  output_append := Output.SameUpToReports.append

variable {s t : Run}

/-- A change of the environment that depends on the environment only. -/
theorem couples_changeEnv (g : Env String → Env String) :
    coupling.Couples (fun s => s.withEnv (g s.env)) fun s => s.withEnv (g s.env) := by
  intro s t hst
  exact (Coupling.Moves.refl hst).withEnv (congrArg g hst.env)

theorem eq_nil_iff_of_perm {α : Type} {l l' : List α} (h : l.Perm l') : l = [] ↔ l' = [] := by
  constructor
  · rintro rfl
    exact h.symm.eq_nil
  · rintro rfl
    exact h.eq_nil

/-- The names of rearranged patterns form one set. -/
theorem ofList_names_of_perm {ps qs : List Pattern} (h : ps.Perm qs) :
    (OrderedSet.ofList (ps.map (·.name)) : Taint) = OrderedSet.ofList (qs.map (·.name)) := by
  refine OrderedSet.ext fun m => ?_
  rw [OrderedSet.mem_ofList, OrderedSet.mem_ofList]
  exact (h.map (·.name)).mem_iff

/-! ## §3. Calls. -/

/-- **Sinks in any order**: the arguments are registered in their own order, and the reports are rearranged. -/
theorem couples_sinks (function : String) (names : List String) {sinks sinks' : List Pattern}
    (h : sinks.Perm sinks') :
    coupling.Couples (fun s => sinks.foldl (Run.checkSink function names) s)
      fun s => sinks'.foldl (Run.checkSink function names) s := by
  intro s t hst
  have henv : s.env = t.env := hst.env
  have hregistered : (if sinks = [] then s.env else s.env.declareAll names)
      = if sinks' = [] then t.env else t.env.declareAll names := by
    rw [henv]
    exact if_congr (eq_nil_iff_of_perm h) rfl rfl
  have hreports : (sinkReports function s.env names sinks).Perm (sinkReports function t.env names sinks') := by
    rw [henv]
    exact h.flatMap_right _
  simp only [foldl_checkSink]
  exact ((Coupling.Moves.refl hst).withEnv hregistered).emit (.ofReports hreports)

theorem couples_applySanitizer (function : String) (names : List String) :
    coupling.Couples (fun s => s.applySanitizer function names) fun s => s.applySanitizer function names := by
  simp only [Run.applySanitizer_eq_emit]
  exact (couples_changeEnv fun e => names.foldl Env.sanitize e).andThen (Coupling.Couples.emit (coupling.output_refl _))

/-- **Calls.**  Whether there is a sink or a sanitizer does not depend on the order of the patterns. -/
theorem couples_call (function : String) (arguments : List Node) :
    coupling.Couples (fun s => s.call function arguments) fun s => s.call function arguments := by
  intro s t hst
  show coupling.Moves s t (s.call function arguments) (t.call function arguments)
  have hactive : s.active.Perm t.active := hst.active
  have hsinks : (Catalog.withSink function s.active).Perm (Catalog.withSink function t.active) := hactive.filter _
  have hsanitizers : Catalog.withSanitizer function s.active = [] ↔ Catalog.withSanitizer function t.active = [] :=
    eq_nil_iff_of_perm (hactive.filter _)
  have hnone_iff := and_congr (eq_nil_iff_of_perm hsinks) hsanitizers
  by_cases hnone : Catalog.withSink function s.active = [] ∧ Catalog.withSanitizer function s.active = []
  · rw [call_of_none hnone, call_of_none (hnone_iff.1 hnone)]
    exact Coupling.Moves.refl hst
  · obtain ⟨names, f, -, heq⟩ := namedArguments_eq arguments
    have hread : coupling.Moves s t (f s) (f t) := by
      obtain ⟨k, hk⟩ := View.namedArguments_eq_iterate arguments
      simp only [heq] at hk
      have hf : f = (fun s : Run => s.fallback "variable_without_name" "")^[k] := hk
      rw [hf]
      exact (Coupling.Couples.fallback _ _).iterate k s t hst
    have hchecked := hread.trans (couples_sinks function names hsinks (f s) (f t) hread.relates)
    rw [call_of_some hnone, call_of_some fun h => hnone (hnone_iff.2 h), heq s, heq t]
    by_cases hclean : Catalog.withSanitizer function s.active = [] ∨ names = []
    · rw [if_pos hclean, if_pos (hclean.imp_left hsanitizers.1)]
      exact hchecked
    · rw [if_neg hclean, if_neg fun h => hclean (h.imp_left hsanitizers.2)]
      exact hchecked.trans (couples_applySanitizer function names _ _ hchecked.relates)

/-! ## §4. Expressions. -/

section Evaluation

variable (o : Options)

/-- An entry point leads to the same patterns in some order, and narrowing leaves these on both sides. -/
theorem moves_lookupPatterns (hst : coupling.Relates s t) (name : Option String) :
    (s.lookupPatterns o name).1.Perm (t.lookupPatterns o name).1 ∧
      coupling.Moves s t (s.lookupPatterns o name).2 (t.lookupPatterns o name).2 := by
  cases name with
  | none => exact ⟨.refl _, Coupling.Couples.fallback "offsetlookup_without_name" "" s t hst⟩
  | some name =>
    have hactive : s.active.Perm t.active := hst.active
    have hmatched : (Catalog.withEntryPoint (o.entryPointSign ++ name) s.active).Perm
        (Catalog.withEntryPoint (o.entryPointSign ++ name) t.active) := hactive.filter _
    unfold Run.lookupPatterns Run.queryEntryPoint
    match o.narrowing with
    | .scoped => exact ⟨hmatched, Coupling.Moves.refl hst⟩
    | .legacy =>
      refine ⟨hmatched, ⟨hmatched, hst.env, hst.guards⟩, {}, {}, coupling.output_refl {}, ?_, ?_⟩
      · exact (Run.Adds.nothing s).of_record rfl rfl
      · exact (Run.Adds.nothing t).of_record rfl rfl

/-- A guarded literal has the names of all patterns, in whatever order these stand. -/
theorem moves_literalTaint (hst : coupling.Relates s t) (value : String) :
    (s.literalTaint o value).1 = (t.literalTaint o value).1 ∧
      coupling.Moves s t (s.literalTaint o value).2 (t.literalTaint o value).2 := by
  have hguard : t.guard? = s.guard? := congrArg List.head? hst.guards
  have hnames : s.activeNames = t.activeNames := ofList_names_of_perm hst.active
  unfold Run.literalTaint
  rw [hguard, hnames]
  split
  · refine ⟨rfl, ?_⟩
    simp only [Run.log_eq_emit]
    exact (Coupling.Moves.refl hst).emit (coupling.output_refl _)
  · exact ⟨rfl, Coupling.Moves.refl hst⟩

theorem moves_read (hst : coupling.Relates s t) (x : String) :
    (s.read x).1 = (t.read x).1 ∧ coupling.Moves s t (s.read x).2 (t.read x).2 :=
  ⟨congrArg (Env.taintOf · x) hst.env, couples_changeEnv (Env.declare · x) s t hst⟩

theorem moves_interpolate (parts : List Node) : ∀ {s t : Run} (taint : Taint), coupling.Relates s t →
    (Run.interpolate taint parts s).1 = (Run.interpolate taint parts t).1 ∧
      coupling.Moves s t (Run.interpolate taint parts s).2 (Run.interpolate taint parts t).2 := by
  induction parts with
  | nil => exact fun _ hst => ⟨rfl, Coupling.Moves.refl hst⟩
  | cons n rest ih =>
    intro s t taint hst
    by_cases hn : ∃ x, n = .var (some x)
    · obtain ⟨x, rfl⟩ := hn
      obtain ⟨hmarks, hread⟩ := moves_read hst x
      obtain ⟨htaint, hmoves⟩ := ih (taint ∪ (s.read x).1) hread.relates
      show (Run.interpolate (taint ∪ (s.read x).1) rest (s.read x).2).1
          = (Run.interpolate (taint ∪ (t.read x).1) rest (t.read x).2).1 ∧
        coupling.Moves s t (Run.interpolate (taint ∪ (s.read x).1) rest (s.read x).2).2
          (Run.interpolate (taint ∪ (t.read x).1) rest (t.read x).2).2
      rw [← hmarks]
      exact ⟨htaint, hread.trans hmoves⟩
    · rw [interpolate_cons_of_ne fun x hx => hn ⟨x, hx⟩, interpolate_cons_of_ne fun x hx => hn ⟨x, hx⟩]
      exact ih taint hst

/-- **Expressions** have the same taint on both sides. -/
theorem couples_evaluate (n : Node) : ∀ {s t : Run}, coupling.Relates s t →
    (evaluate o n s).1 = (evaluate o n t).1 ∧ coupling.Moves s t (evaluate o n s).2 (evaluate o n t).2 := by
  induction n using expression_induction o with
  | lookup name offset =>
    intro s t hst
    rw [evaluate_lookup]
    obtain ⟨hfound, hmoves⟩ := moves_lookupPatterns o hst name
    exact ⟨ofList_names_of_perm hfound, hmoves⟩
  | concat left right hleft hright =>
    intro s t hst
    rw [evaluate_concat]
    obtain ⟨htaint, hmoves⟩ := hleft hst
    obtain ⟨htaint', hmoves'⟩ := hright hmoves.relates
    exact ⟨congrArg₂ (· ∪ ·) htaint htaint', hmoves.trans hmoves'⟩
  | literal value =>
    intro s t hst
    rw [evaluate_literal]
    exact moves_literalTaint o hst value
  | encapsed parts =>
    intro s t hst
    rw [evaluate_encapsed]
    exact moves_interpolate parts ∅ hst
  | read x =>
    intro s t hst
    rw [evaluate_read]
    exact moves_read hst x
  | pass function argument rest hpass ih =>
    intro s t hst
    rw [evaluate_pass hpass]
    exact ih hst
  | call function arguments hpass =>
    intro s t hst
    rw [evaluate_call hpass]
    exact ⟨rfl, couples_call function arguments s t hst⟩
  | idle n heq =>
    intro s t hst
    rw [heq s, heq t]
    exact ⟨rfl, Coupling.Moves.refl hst⟩
  | inert n reason detail heq =>
    intro s t hst
    rw [heq s, heq t]
    exact ⟨rfl, Coupling.Couples.fallback reason detail s t hst⟩

/-! ## §5. Statements. -/

theorem couples_assign (left right : Node) :
    coupling.Couples (execute o (.assign left right)) (execute o (.assign left right)) := by
  intro s t hst
  rw [execute_assign]
  obtain ⟨htaint, hmoves⟩ := couples_evaluate o right hst
  show coupling.Moves s t (Run.assign _ left _) (Run.assign _ left _)
  rw [htaint]
  refine hmoves.trans ?_
  by_cases hleft : ∃ x, left = .var (some x)
  · obtain ⟨x, rfl⟩ := hleft
    exact couples_changeEnv (fun e => (e.declare x).assign x (evaluate o right t).1) _ _ hmoves.relates
  · have hfallback : ∀ (r : Run) (u : Taint), r.assign left u = r.fallback "assign_without_target" left.kindName := by
      intro r u
      rw [Run.assign]
      exact fun x hx => hleft ⟨x, hx⟩
    simp only [hfallback]
    exact Coupling.Couples.fallback _ _ _ _ hmoves.relates

theorem couples_echoLookup (name : Option String) :
    coupling.Couples (fun s => s.echoLookup o name) fun s => s.echoLookup o name := by
  intro s t hst
  obtain ⟨hfound, hmoves⟩ := moves_lookupPatterns o hst name
  have hreports : (outputReports o name (s.lookupPatterns o name).1).Perm
      (outputReports o name (t.lookupPatterns o name).1) := (hfound.filter _).map _
  simp only [echoLookup_eq]
  exact hmoves.emit (.ofReports hreports)

theorem couples_echo (arguments : List Node) :
    coupling.Couples (Run.echo o arguments) (Run.echo o arguments) := by
  induction arguments with
  | nil => exact Coupling.Couples.idle
  | cons n rest ih =>
    match n with
    | .offsetLookup name _ => exact (couples_echoLookup o name).andThen ih
    | .unknown .. | .var _ | .string _ | .bin .. | .call .. | .encapsed _ | .assign .. | .echo _
    | .cond .. | .loop .. | .block _ => exact ih

/-- **Statements.**  The environments are the same, so loops stop at the same time. -/
theorem couples_execute (n : Node) : coupling.Couples (execute o n) (execute o n) := by
  refine Coupling.Couples.statement (couples_assign o) (couples_echo o) (fun s t hst => ?_) n
  exact congrArg Env.weight hst.env

end Evaluation

/-! ## §6. Programs. -/

theorem sameUpToReports_of_moves {s t a b : Run} (h : coupling.Moves s t a b) (hrecord : t.record = s.record) :
    a.SameUpToReports b := by
  obtain ⟨hrelates, d, d', hd, ha, hb⟩ := h
  have hb' : s.Adds d' b := hb.of_record hrecord.symm rfl
  refine ⟨hrelates.env, hrelates.guards.symm, hrelates.active, ?_, ?_, ?_, ?_, ?_⟩
  · show a.verdict.violatedPatterns.Perm b.verdict.violatedPatterns
    rw [ha.verdict, hb'.verdict]
    exact hd.violated.append_left _
  · show a.verdict.vulnerable = b.verdict.vulnerable
    rw [ha.verdict, hb'.verdict]
    show (s.verdict.vulnerable || !d.violated.isEmpty) = (s.verdict.vulnerable || !d'.violated.isEmpty)
    rw [hd.violated.isEmpty_eq]
  · show a.verdict.sanitizersApplied = b.verdict.sanitizersApplied
    rw [ha.verdict, hb'.verdict]
    exact congrArg (_ ++ ·) hd.sanitizers
  · show a.verdict.loopIterations = b.verdict.loopIterations
    rw [ha.verdict, hb'.verdict]
    exact congrArg (_ + ·) hd.iterations
  · show a.diagnostics = b.diagnostics
    rw [ha.diagnostics, hb'.diagnostics, hd.reasons]

variable {o : Options} {c c' : Catalog}

theorem sameUpToReports_run (h : c.patterns.Perm c'.patterns) (loading : Tally) (p : Program) :
    (p.run o c loading).SameUpToReports (p.run o c' loading) := by
  have hcouples : coupling.Couples (executeAll o p.children) (executeAll o p.children) :=
    (Coupling.Couples.sequential coupling).all fun n _ => couples_execute o n
  exact sameUpToReports_of_moves (hcouples _ _ ⟨h, rfl, rfl⟩) rfl

/-- How deeply conditionals are nested does not depend on the catalog. -/
theorem sameResults_analyze (h : c.patterns.Perm c'.patterns) (limits : Limits) (loading : Tally) (p : Program) :
    SameResults (p.analyze limits o c loading).1 (p.analyze limits o c' loading).1 := by
  unfold Program.analyze
  split
  · exact (sameUpToReports_run h loading p).conclusion
  · exact rfl

end Reordered

/-- **The order of the catalog shows in the order of reports only**, for every program, in both narrowing modes and under
all other options: the patterns in another order lead to the same environment, with its variables in the same order,
the same sanitizers, counts and iterations, and the same violations, each as often.  What cannot be loaded or analysed
fails in the same way. -/
theorem catalog_order_shows_in_reports_only (limits : Limits) (o : Options) {c c' : Catalog}
    (h : c.patterns.Perm c'.patterns) :
    (∀ (loading : Tally) (p : Program), (p.run o c loading).SameUpToReports (p.run o c' loading) ∧
      SameResults (p.analyze limits o c loading).1 (p.analyze limits o c' loading).1) ∧
    ∀ data : Datum, SameResults (analyze limits o c data).1 (analyze limits o c' data).1 := by
  refine ⟨fun loading p => ?_, fun data => ?_⟩
  · exact ⟨Reordered.sameUpToReports_run h loading p, Reordered.sameResults_analyze h limits loading p⟩
  · cases hload : (Syntax.load limits data).1 with
    | error e =>
      rw [analyze_of_load_error hload, analyze_of_load_error hload]
      exact rfl
    | ok p =>
      rw [analyze_of_load hload, analyze_of_load hload]
      exact Reordered.sameResults_analyze h limits _ p

/-- Input that reaches a function which is a sink of two patterns and a sanitizer of a third, in a loop and under a
guard, and is printed in the end. -/
def contestedSink : Program where
  children :=
    [.loop (.var (some "more"))
      [.cond (.bin "==" (.var (some "mode")) (.string "raw"))
        [.assign (.var (some "q")) (.bin "." (.var (some "q")) (.offsetLookup (some "_GET") none))]
        (some [.assign (.var (some "r")) (.call (some "send") [.var (some "q"), .var (some "mode"), .var none])])],
     .echo [.offsetLookup (some "_GET") none]]

theorem contestedSink_catalog_order :
    let o : Options := { blockStrategy := .all, narrowing := .legacy }
    let sql : Pattern := .build "SQL" ["$_GET", "$_POST"] [] ["send"]
    let mail : Pattern := .build "Mail" ["$_GET"] [] ["send", "echo"]
    let xss : Pattern := .build "XSS" ["$_GET"] ["send"] ["echo"]
    let xml : Pattern := .build "XML" ["$_COOKIE"] [] ["send", "echo"]
    let c : Catalog := ⟨[sql, mail, xss, xml]⟩
    let c' : Catalog := ⟨[xml, xss, mail, sql]⟩
    c.patterns.Perm c'.patterns ∧
      (contestedSink.run o c ∅).SameUpToReports (contestedSink.run o c' ∅) ∧
      (contestedSink.run o c ∅).verdict.violatedPatterns = ["SQL", "Mail", "Mail", "XSS"] ∧
      (contestedSink.run o c' ∅).verdict.violatedPatterns = ["Mail", "SQL", "XSS", "Mail"] ∧
      (contestedSink.run o c ∅).verdict.sanitizersApplied = ["send", "send"] ∧
      (contestedSink.run o c' ∅).env.names = ["q", "mode", "r"] := by
  intro o sql mail xss xml c c'
  have hperm : c.patterns.Perm c'.patterns := (List.reverse_perm c.patterns).symm
  have hsame := (catalog_order_shows_in_reports_only .standard o hperm).1 ∅ contestedSink
  exact ⟨hperm, hsame.1, by decide +kernel, by decide +kernel, by decide +kernel, by decide +kernel⟩

end TaintFlow
