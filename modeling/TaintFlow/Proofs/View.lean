/-
  TaintFlow.Proofs.View
  ─────────────────────
  **Two executions of one statement, seen through some marks and some variables.**

  A view keeps some names of patterns and sees some variables.  The two executions may start
  from environments that differ in everything else, and the second one may go without the
  entry points and sinks of patterns that are not kept:

    • `View.coupling` — the kept marks of the seen variables are the same on both sides, and so
      are the kept violations and the sanitizers; if all marks are kept, then also the
      registered variables, up to some that the second side has had from the start, and the
      whole output,
    • `View.couples_evaluate`, `View.couples_execute` — every statement whose variables are seen
      keeps the two sides coupled.

  A view that does not keep all marks needs that no loop is executed, because a loop weighs all
  marks, and that reading an entry point leaves the patterns under consideration alone.
-/
import TaintFlow.Proofs.Coupling
import TaintFlow.Proofs.Locality
import TaintFlow.Proofs.Paths

namespace TaintFlow

/-! ## §1. Patterns that are not kept. -/

/-- The pattern itself if its name is kept, and otherwise its name and its sanitizers only. -/
def Pattern.restrict (keeps : String → Bool) (p : Pattern) : Pattern :=
  if keeps p.name then p else { p with entryPoints := ∅, sinks := ∅ }

section Restrict

variable {keeps : String → Bool}

theorem Pattern.restrict_of_keeps {p : Pattern} (h : keeps p.name = true) : p.restrict keeps = p := if_pos h

theorem Pattern.restrict_of_drops {p : Pattern} (h : keeps p.name = false) :
    p.restrict keeps = { p with entryPoints := ∅, sinks := ∅ } := if_neg (by simp [h])

@[simp] theorem Pattern.name_restrict (p : Pattern) : (p.restrict keeps).name = p.name := by
  unfold Pattern.restrict
  split <;> rfl

@[simp] theorem Pattern.sanitizers_restrict (p : Pattern) : (p.restrict keeps).sanitizers = p.sanitizers := by
  unfold Pattern.restrict
  split <;> rfl

theorem map_restrict_of_keeps_all (h : ∀ m, keeps m = true) (ps : List Pattern) :
    ps.map (Pattern.restrict keeps) = ps := by
  have hid : ∀ p ∈ ps, Pattern.restrict keeps p = id p := fun p _ => Pattern.restrict_of_keeps (h p.name)
  rw [List.map_congr_left hid, List.map_id]

/-- A query that no dropped pattern answers finds the kept ones among those it found before. -/
theorem filter_map_restrict {q : Pattern → Bool} (hq : ∀ p : Pattern, keeps p.name = false → q (p.restrict keeps) = false)
    (ps : List Pattern) :
    (ps.map (Pattern.restrict keeps)).filter q = (ps.filter q).filter fun p => keeps p.name := by
  induction ps with
  | nil => rfl
  | cons p rest ih =>
    cases hp : keeps p.name with
    | true =>
      rw [List.map_cons, Pattern.restrict_of_keeps hp]
      cases hqp : q p <;> simp [hqp, hp, ih]
    | false =>
      rw [List.map_cons, List.filter_cons_of_neg (by simp [hq p hp]), ih]
      cases hqp : q p <;> simp [hqp, hp]

theorem withSink_restrict (function : String) (ps : List Pattern) :
    Catalog.withSink function (ps.map (Pattern.restrict keeps))
      = (Catalog.withSink function ps).filter fun p => keeps p.name := by
  refine filter_map_restrict (fun p hp => ?_) ps
  rw [Pattern.restrict_of_drops hp]
  exact decide_eq_false (OrderedSet.not_mem_emptyc function)

theorem withEntryPoint_restrict (entry : String) (ps : List Pattern) :
    Catalog.withEntryPoint entry (ps.map (Pattern.restrict keeps))
      = (Catalog.withEntryPoint entry ps).filter fun p => keeps p.name := by
  refine filter_map_restrict (fun p hp => ?_) ps
  rw [Pattern.restrict_of_drops hp]
  exact decide_eq_false (OrderedSet.not_mem_emptyc entry)

/-- Every pattern still has its sanitizers. -/
theorem withSanitizer_restrict_eq_nil (function : String) (ps : List Pattern) :
    Catalog.withSanitizer function (ps.map (Pattern.restrict keeps)) = []
      ↔ Catalog.withSanitizer function ps = [] := by
  simp [Catalog.withSanitizer, List.filter_eq_nil_iff]

end Restrict

/-! ## §2. Views. -/

/-- The marks that are kept and the variables that are seen.  The variables in `extra` have been
registered on the second side from the start. -/
structure View where
  keeps : String → Bool
  sees : String → Prop
  extra : String → Prop

namespace View

/-- All marks are kept. -/
def Complete (V : View) : Prop := ∀ m, V.keeps m = true

/-- All marks on all variables. -/
def all (registered : String → Prop) : View where
  keeps _ := true
  sees _ := True
  extra := registered

theorem complete_all (registered : String → Prop) : (View.all registered).Complete := fun _ => rfl

/-- The taints have the same kept marks. -/
def Same (V : View) (t t' : Taint) : Prop := ∀ m, V.keeps m = true → (m ∈ t ↔ m ∈ t')

/-- Seen variables have the same kept marks, and in a complete view the same ones are registered. -/
structure SameEnv (V : View) (e e' : Env String) : Prop where
  taints : ∀ x, V.sees x → V.Same (e.taintOf x) (e'.taintOf x)
  names : V.Complete → ∀ x, V.sees x → (x ∈ e'.names ↔ x ∈ e.names ∨ V.extra x)

/-- The outputs have the same sanitizers and kept violations, and in a complete view they are the same. -/
structure SameOutput (V : View) (d d' : Output) : Prop where
  violated : d.violated.filter V.keeps = d'.violated.filter V.keeps
  sanitizers : d.sanitizers = d'.sanitizers
  equal : V.Complete → d = d'

variable {V : View}

theorem Same.refl (V : View) (t : Taint) : V.Same t t := fun _ _ => Iff.rfl

theorem Same.union {t t' u u' : Taint} (ht : V.Same t t') (hu : V.Same u u') : V.Same (t ∪ u) (t' ∪ u') := by
  intro m hm
  rw [OrderedSet.mem_union, OrderedSet.mem_union, ht m hm, hu m hm]

theorem Same.eq_of_complete (hV : V.Complete) {t t' : Taint} (h : V.Same t t') : t = t' :=
  OrderedSet.ext fun m => h m (hV m)

theorem not_complete_of_drops {m : String} (h : V.keeps m = false) : ¬ V.Complete := by
  intro hV
  rw [hV m] at h
  cases h

/-- **The coupling of a view.** -/
def coupling (V : View) : Coupling where
  active ps qs := qs = ps.map (Pattern.restrict V.keeps)
  env := V.SameEnv
  output := V.SameOutput
  env_join {a a' b b'} ha hb := by
    refine ⟨fun x hx => ?_, fun hV x hx => ?_⟩
    · rw [Env.taintOf_join, Env.taintOf_join]
      exact (ha.taints x hx).union (hb.taints x hx)
    · rw [Env.mem_names_join, Env.mem_names_join, ha.names hV x hx, hb.names hV x hx]
      tauto
  output_refl _ := ⟨rfl, rfl, fun _ => rfl⟩
  output_append {c c' d d'} hc hd := by
    refine ⟨?_, ?_, fun hV => ?_⟩
    · simp only [Output.append, List.filter_append, hc.violated, hd.violated]
    · simp only [Output.append, hc.sanitizers, hd.sanitizers]
    · rw [hc.equal hV, hd.equal hV]

/-! ## §3. Changes of the environment. -/

namespace SameEnv

variable {e e' : Env String}

theorem declare (h : V.SameEnv e e') (x : String) : V.SameEnv (e.declare x) (e'.declare x) where
  taints y hy := by
    rw [Env.taintOf_declare, Env.taintOf_declare]
    exact h.taints y hy
  names hV y hy := by
    rw [Env.mem_names_declare, Env.mem_names_declare, h.names hV y hy, or_assoc]

theorem declare_left (h : V.SameEnv e e') (hV : ¬ V.Complete) (x : String) : V.SameEnv (e.declare x) e' where
  taints y hy := by
    rw [Env.taintOf_declare]
    exact h.taints y hy
  names hcomplete := absurd hcomplete hV

theorem assign (h : V.SameEnv e e') (x : String) {t t' : Taint} (ht : V.Same t t') :
    V.SameEnv (e.assign x t) (e'.assign x t') where
  taints y hy := by
    rw [Env.taintOf_assign, Env.taintOf_assign]
    split
    · exact ht
    · exact h.taints y hy
  names hV y hy := by
    rw [Env.mem_names_assign, Env.mem_names_assign, h.names hV y hy, or_assoc]

theorem sanitizeAll (h : V.SameEnv e e') (xs : List String) :
    V.SameEnv (xs.foldl Env.sanitize e) (xs.foldl Env.sanitize e') := by
  induction xs generalizing e e' with
  | nil => exact h
  | cons x xs ih => exact ih (h.assign x (Same.refl V ∅))

end SameEnv

/-! ## §4. Sinks and sanitizers. -/

variable {s t : Run}

theorem moves_read (hst : V.coupling.Relates s t) (x : String) :
    V.coupling.Moves s t (s.read x).2 (t.read x).2 :=
  (Coupling.Moves.refl hst).withEnv (SameEnv.declare hst.env x)

/-- A kept pattern is reported on both sides or on none. -/
theorem couples_checkArgument {x : String} (hx : V.sees x) (function : String) {p : Pattern}
    (hp : V.keeps p.name = true) :
    V.coupling.Couples (fun s => Run.checkArgument function p s x) fun s => Run.checkArgument function p s x := by
  intro s t hst
  have hmark : p.name ∈ s.env.taintOf x ↔ p.name ∈ t.env.taintOf x := SameEnv.taints hst.env x hx p.name hp
  have hread := moves_read hst x
  simp only [Run.checkArgument, Run.report_eq_emit]
  show V.coupling.Moves s t (if p.name ∈ s.env.taintOf x then _ else _) (if p.name ∈ t.env.taintOf x then _ else _)
  by_cases h : p.name ∈ s.env.taintOf x
  · rw [if_pos h, if_pos (hmark.1 h)]
    exact hread.emit (V.coupling.output_refl _)
  · rw [if_neg h, if_neg fun h' => h (hmark.2 h')]
    exact hread

/-- What the left side reports about a dropped pattern is out of view. -/
theorem sameOutput_dropped {p : String} (hp : V.keeps p = false) (events : List Event) :
    V.SameOutput { violated := [p], events := events } {} where
  violated := by simp [hp]
  sanitizers := rfl
  equal hV := absurd hV (not_complete_of_drops hp)

theorem couples_checkArgument_dropped (x function : String) {p : Pattern} (hp : V.keeps p.name = false) :
    V.coupling.Couples (fun s => Run.checkArgument function p s x) id := by
  intro s t hst
  have hdeclared : V.SameEnv (s.env.declare x) t.env :=
    SameEnv.declare_left hst.env (not_complete_of_drops hp) x
  have hread : V.coupling.Moves s t (s.read x).2 t := (Coupling.Moves.refl hst).withEnv hdeclared
  simp only [Run.checkArgument, Run.report_eq_emit]
  show V.coupling.Moves s t (if p.name ∈ s.env.taintOf x then _ else _) t
  split
  · exact hread.emit_left (sameOutput_dropped hp _)
  · exact hread

theorem couples_applySanitizer (function : String) (names : List String) :
    V.coupling.Couples (fun s => s.applySanitizer function names) fun s => s.applySanitizer function names := by
  intro s t hst
  simp only [Run.applySanitizer_eq_emit]
  exact ((Coupling.Moves.refl hst).withEnv (SameEnv.sanitizeAll hst.env names)).emit (V.coupling.output_refl _)

/-- The right side checks only the sinks of kept patterns. -/
theorem couples_sinks {names : List String} (h : ∀ x ∈ names, V.sees x) (function : String) (sinks : List Pattern) :
    V.coupling.Couples (fun s => sinks.foldl (Run.checkSink function names) s)
      fun s => (sinks.filter fun p => V.keeps p.name).foldl (Run.checkSink function names) s := by
  refine Coupling.Couples.foldl_filter _ (fun p hp => ?_) (fun p hp => ?_) sinks
  · exact Coupling.Couples.foldl fun x hx => couples_checkArgument (h x hx) function hp
  · -- the arguments are read on the left side only
    have hleft : ∀ l : List String, V.coupling.Couples (fun s => l.foldl (Run.checkArgument function p) s) id := by
      intro l
      induction l with
      | nil => exact Coupling.Couples.idle
      | cons x l ih => exact (couples_checkArgument_dropped x function hp).andThen ih
    exact hleft names

/-- Collecting arguments has no effect but to count the variables without a name. -/
theorem namedArguments_eq_iterate (arguments : List Node) :
    ∃ k, (fun s => (Run.namedArguments arguments s).2)
      = (fun s : Run => s.fallback "variable_without_name" "")^[k] := by
  induction arguments with
  | nil => exact ⟨0, rfl⟩
  | cons n rest ih =>
    obtain ⟨k, hk⟩ := ih
    match n with
    | .var none =>
      refine ⟨k + 1, ?_⟩
      rw [Function.iterate_succ, ← hk]
      rfl
    | .var (some _) | .unknown .. | .string _ | .offsetLookup .. | .bin .. | .call .. | .encapsed _ | .assign ..
    | .echo _ | .cond .. | .loop .. | .block _ => exact ⟨k, hk⟩

theorem couples_namedArguments (arguments : List Node) :
    V.coupling.Couples (fun s => (Run.namedArguments arguments s).2) fun s => (Run.namedArguments arguments s).2 := by
  obtain ⟨k, hk⟩ := namedArguments_eq_iterate arguments
  rw [hk]
  exact (Coupling.Couples.fallback "variable_without_name" "").iterate k

/-- Without a sink or sanitizer the arguments are not even looked at; the counts tell the difference, but
no view that drops marks does. -/
theorem couples_namedArguments_left (hV : ¬ V.Complete) (arguments : List Node) :
    V.coupling.Couples (fun s => (Run.namedArguments arguments s).2) id := by
  have hfallback : V.coupling.Couples (fun s => s.fallback "variable_without_name" "") id := by
    intro s t hst
    simp only [Run.fallback_eq_emit]
    exact (Coupling.Moves.refl hst).emit_left ⟨rfl, rfl, fun hcomplete => absurd hcomplete hV⟩
  obtain ⟨k, hk⟩ := namedArguments_eq_iterate arguments
  have hiterate := hfallback.iterate k
  rwa [Function.iterate_id, ← hk] at hiterate

/-- **Calls.** -/
theorem couples_call {arguments : List Node} (h : ∀ x, .var (some x) ∈ arguments → V.sees x) (function : String) :
    V.coupling.Couples (fun s => s.call function arguments) fun s => s.call function arguments := by
  intro s t hst
  show V.coupling.Moves s t (s.call function arguments) (t.call function arguments)
  have hactive : t.active = s.active.map (Pattern.restrict V.keeps) := hst.active
  have hsinks : Catalog.withSink function t.active
      = (Catalog.withSink function s.active).filter fun p => V.keeps p.name := by
    rw [hactive, withSink_restrict]
  have hsanitizers : Catalog.withSanitizer function t.active = [] ↔ Catalog.withSanitizer function s.active = [] := by
    rw [hactive, withSanitizer_restrict_eq_nil]
  by_cases hnone : Catalog.withSink function s.active = [] ∧ Catalog.withSanitizer function s.active = []
  · -- neither side has anything to do
    have hnone' : Catalog.withSink function t.active = [] ∧ Catalog.withSanitizer function t.active = [] := by
      refine ⟨?_, hsanitizers.2 hnone.2⟩
      rw [hsinks, hnone.1, List.filter_nil]
    rw [call_of_none hnone, call_of_none hnone']
    exact Coupling.Moves.refl hst
  · obtain ⟨names, f, -, heq⟩ := namedArguments_eq arguments
    have hnames : ∀ x ∈ names, V.sees x := by
      intro x hx
      have hmem : x ∈ (Run.namedArguments arguments s).1 := by
        rw [heq s]
        exact hx
      exact h x (mem_namedArguments.1 hmem)
    have hchecks := couples_sinks hnames function (Catalog.withSink function s.active)
    rw [← hsinks] at hchecks
    rw [call_of_some hnone, heq s]
    by_cases hnone' : Catalog.withSink function t.active = [] ∧ Catalog.withSanitizer function t.active = []
    · -- only dropped patterns have the sink, and the right side returns at once
      have hV : ¬ V.Complete := by
        intro hV
        rw [hactive, map_restrict_of_keeps_all hV] at hnone'
        exact hnone hnone'
      have hread := couples_namedArguments_left hV arguments s t hst
      simp only [heq s] at hread
      have hchecked := hread.trans (hchecks _ _ hread.relates)
      rw [hnone'.1] at hchecked
      rw [call_of_none hnone', if_pos (.inl (hsanitizers.1 hnone'.2))]
      exact hchecked
    · have hread := couples_namedArguments arguments s t hst
      simp only [heq s, heq t] at hread
      have hchecked := hread.trans (hchecks _ _ hread.relates)
      rw [call_of_some hnone', heq t]
      by_cases hclean : Catalog.withSanitizer function s.active = [] ∨ names = []
      · rw [if_pos hclean, if_pos (hclean.imp_left hsanitizers.2)]
        exact hchecked
      · rw [if_neg hclean, if_neg fun h' => hclean (h'.imp_left hsanitizers.1)]
        exact hchecked.trans (couples_applySanitizer function names _ _ hchecked.relates)

/-! ## §5. Evaluation. -/

section Evaluation

variable {o : Options} (hmode : V.Complete ∨ o.narrowing = .scoped)
include hmode

/-- An entry point leads to the kept patterns among those that it leads to on the left side. -/
theorem moves_lookupPatterns (hst : V.coupling.Relates s t) (name : Option String) :
    (t.lookupPatterns o name).1 = ((s.lookupPatterns o name).1.filter fun p => V.keeps p.name) ∧
      V.coupling.Moves s t (s.lookupPatterns o name).2 (t.lookupPatterns o name).2 := by
  have hactive : t.active = s.active.map (Pattern.restrict V.keeps) := hst.active
  cases name with
  | none => exact ⟨rfl, Coupling.Couples.fallback "offsetlookup_without_name" "" s t hst⟩
  | some name =>
    have hmatched : Catalog.withEntryPoint (o.entryPointSign ++ name) t.active
        = (Catalog.withEntryPoint (o.entryPointSign ++ name) s.active).filter fun p => V.keeps p.name := by
      rw [hactive, withEntryPoint_restrict]
    match hnarrowing : o.narrowing with
    | .scoped =>
      rw [lookupPatterns_of_scoped hnarrowing, lookupPatterns_of_scoped hnarrowing]
      exact ⟨hmatched, Coupling.Moves.refl hst⟩
    | .legacy =>
      have hV : V.Complete := by
        obtain hV | hscoped := hmode
        · exact hV
        · rw [hnarrowing] at hscoped
          cases hscoped
      unfold Run.lookupPatterns Run.queryEntryPoint
      rw [hnarrowing]
      -- both sides go on with the patterns that were found
      have hsame : V.coupling.active (Catalog.withEntryPoint (o.entryPointSign ++ name) s.active)
          (Catalog.withEntryPoint (o.entryPointSign ++ name) t.active) := by
        show _ = List.map _ _
        rw [hactive, map_restrict_of_keeps_all hV, map_restrict_of_keeps_all hV]
      refine ⟨hmatched, ⟨hsame, hst.env, hst.guards⟩, {}, {}, V.coupling.output_refl {}, ?_, ?_⟩
      · exact (Run.Adds.nothing s).of_record rfl rfl
      · exact (Run.Adds.nothing t).of_record rfl rfl

omit hmode in
theorem moves_literalTaint (hst : V.coupling.Relates s t) (value : String) :
    V.Same (s.literalTaint o value).1 (t.literalTaint o value).1 ∧
      V.coupling.Moves s t (s.literalTaint o value).2 (t.literalTaint o value).2 := by
  have hguard : t.guard? = s.guard? := congrArg List.head? hst.guards
  -- a guarded literal has the names of all patterns, and these are the same on both sides
  have hnames : t.activeNames = s.activeNames := by
    have hactive : t.active = s.active.map (Pattern.restrict V.keeps) := hst.active
    unfold Run.activeNames
    rw [hactive, List.map_map]
    congr 1
    exact List.map_congr_left fun p _ => Pattern.name_restrict p
  unfold Run.literalTaint
  rw [hguard, hnames]
  split
  · simp only [Run.log_eq_emit]
    exact ⟨Same.refl V _, (Coupling.Moves.refl hst).emit (V.coupling.output_refl _)⟩
  · exact ⟨Same.refl V ∅, Coupling.Moves.refl hst⟩

omit hmode in
theorem moves_interpolate {parts : List Node} (h : ∀ x, .var (some x) ∈ parts → V.sees x) :
    ∀ {s t : Run} {u u' : Taint}, V.coupling.Relates s t → V.Same u u' →
      V.Same (Run.interpolate u parts s).1 (Run.interpolate u' parts t).1 ∧
        V.coupling.Moves s t (Run.interpolate u parts s).2 (Run.interpolate u' parts t).2 := by
  induction parts with
  | nil => exact fun hst hu => ⟨hu, Coupling.Moves.refl hst⟩
  | cons n rest ih =>
    intro s t u u' hst hu
    have ih := @ih fun x hx => h x (List.mem_cons_of_mem n hx)
    by_cases hn : ∃ x, n = .var (some x)
    · obtain ⟨x, rfl⟩ := hn
      have hread := moves_read hst x
      have hmarks : V.Same (s.env.taintOf x) (t.env.taintOf x) :=
        SameEnv.taints hst.env x (h x List.mem_cons_self)
      obtain ⟨htaint, hmoves⟩ := ih hread.relates (hu.union hmarks)
      exact ⟨htaint, hread.trans hmoves⟩
    · rw [interpolate_cons_of_ne fun x hx => hn ⟨x, hx⟩, interpolate_cons_of_ne fun x hx => hn ⟨x, hx⟩]
      exact ih hst hu

/-- **Expressions**: the kept marks of the result are the same on both sides. -/
theorem couples_evaluate {n : Node} (h : ∀ x, Node.Occurs (.var (some x)) n → V.sees x) :
    ∀ {s t : Run}, V.coupling.Relates s t →
      V.Same (evaluate o n s).1 (evaluate o n t).1 ∧ V.coupling.Moves s t (evaluate o n s).2 (evaluate o n t).2 := by
  induction n using expression_induction o with
  | lookup name offset =>
    intro s t hst
    rw [evaluate_lookup]
    obtain ⟨hfound, hmoves⟩ := moves_lookupPatterns hmode hst name
    refine ⟨fun m hm => ?_, hmoves⟩
    simp only [OrderedSet.mem_ofList, hfound, List.mem_map, List.mem_filter]
    constructor
    · rintro ⟨p, hp, rfl⟩
      exact ⟨p, ⟨hp, hm⟩, rfl⟩
    · rintro ⟨p, ⟨hp, -⟩, hname⟩
      exact ⟨p, hp, hname⟩
  | concat left right hleft hright =>
    intro s t hst
    rw [evaluate_concat]
    obtain ⟨htaint, hmoves⟩ := hleft (fun x hx => h x (.inside (by simp [Node.children]) hx)) hst
    obtain ⟨htaint', hmoves'⟩ := hright (fun x hx => h x (.inside (by simp [Node.children]) hx)) hmoves.relates
    exact ⟨htaint.union htaint', hmoves.trans hmoves'⟩
  | literal value =>
    intro s t hst
    rw [evaluate_literal]
    exact moves_literalTaint hst value
  | encapsed parts =>
    intro s t hst
    rw [evaluate_encapsed]
    exact moves_interpolate (fun x hx => h x (.inside hx .root)) hst (Same.refl V ∅)
  | read x =>
    intro s t hst
    rw [evaluate_read]
    exact ⟨SameEnv.taints hst.env x (h x .root), moves_read hst x⟩
  | pass function argument rest hpass ih =>
    intro s t hst
    rw [evaluate_pass hpass]
    exact ih (fun x hx => h x (.inside (by simp [Node.children]) hx)) hst
  | call function arguments hpass =>
    intro s t hst
    rw [evaluate_call hpass]
    exact ⟨Same.refl V ∅, couples_call (fun x hx => h x (.inside hx .root)) function s t hst⟩
  | idle n heq =>
    intro s t hst
    rw [heq s, heq t]
    exact ⟨Same.refl V ∅, Coupling.Moves.refl hst⟩
  | inert n reason detail heq =>
    intro s t hst
    rw [heq s, heq t]
    exact ⟨Same.refl V ∅, Coupling.Couples.fallback reason detail s t hst⟩

/-! ## §6. Execution. -/

theorem couples_assign {left right : Node} (h : ∀ x, Node.Occurs (.var (some x)) right → V.sees x) :
    V.coupling.Couples (execute o (.assign left right)) (execute o (.assign left right)) := by
  intro s t hst
  rw [execute_assign]
  obtain ⟨htaint, hmoves⟩ := couples_evaluate hmode h hst
  by_cases hleft : ∃ x, left = .var (some x)
  · obtain ⟨x, rfl⟩ := hleft
    exact hmoves.withEnv ((SameEnv.declare hmoves.relates.env x).assign x htaint)
  · have hfallback : ∀ (r : Run) (u : Taint), r.assign left u = r.fallback "assign_without_target" left.kindName := by
      intro r u
      rw [Run.assign]
      exact fun x hx => hleft ⟨x, hx⟩
    simp only [hfallback]
    exact hmoves.trans (Coupling.Couples.fallback _ _ _ _ hmoves.relates)

theorem couples_echoLookup (name : Option String) :
    V.coupling.Couples (fun s => s.echoLookup o name) fun s => s.echoLookup o name := by
  intro s t hst
  obtain ⟨hfound, hmoves⟩ := moves_lookupPatterns hmode hst name
  simp only [Run.echoLookup, Run.report_eq_emit, hfound]
  refine hmoves.trans (Coupling.Couples.foldl_filter (fun p : Pattern => V.keeps p.name) (fun p hp => ?_)
    (fun p hp => ?_) (s.lookupPatterns o name).1 _ _ hmoves.relates)
  · by_cases hsink : o.echoSink ∈ p.sinks
    · simp only [if_pos hsink]
      exact Coupling.Couples.emit (V.coupling.output_refl _)
    · simp only [if_neg hsink]
      exact Coupling.Couples.idle
  · by_cases hsink : o.echoSink ∈ p.sinks
    · simp only [if_pos hsink]
      exact fun s t hst => (Coupling.Moves.refl hst).emit_left (sameOutput_dropped hp _)
    · simp only [if_neg hsink]
      exact Coupling.Couples.idle

theorem couples_echo (arguments : List Node) :
    V.coupling.Couples (Run.echo o arguments) (Run.echo o arguments) := by
  induction arguments with
  | nil => exact Coupling.Couples.idle
  | cons n rest ih =>
    match n with
    | .offsetLookup name _ => exact (couples_echoLookup hmode name).andThen ih
    | .unknown .. | .var _ | .string _ | .bin .. | .call .. | .encapsed _ | .assign .. | .echo _
    | .cond .. | .loop .. | .block _ => exact ih

end Evaluation

section Execution

variable {o : Options}

/-- In a complete view, an iteration adds to the weight on both sides or on none: outside of the seen
variables neither side changes, and on them both sides have the same marks. -/
theorem weight_le_iff_of_complete (hV : V.Complete) {body : List Node}
    (hsees : ∀ x, Node.OccursIn (.var (some x)) body → V.sees x)
    (hbody : V.coupling.Couples (executeBody o .loop false body) (executeBody o .loop false body))
    (hst : V.coupling.Relates s t) :
    (executeBody o .loop false body s).env.weight ≤ s.env.weight ↔
      (executeBody o .loop false body t).env.weight ≤ t.env.weight := by
  have hafter := (hbody s t hst).relates.env
  have hconfined : Confined V.sees (executeBody o .loop false body) := confined_executeBody o hsees .loop
  refine Env.weight_le_iff_of_same (X := V.sees) ?_ ?_ ?_ ?_
  · exact fun x hx => (SameEnv.taints hst.env x hx).eq_of_complete hV
  · exact fun x hx => (SameEnv.taints hafter x hx).eq_of_complete hV
  · exact fun x hx => Env.taintOf_of_get?_eq (hconfined s x hx)
  · exact fun x hx => Env.taintOf_of_get?_eq (hconfined t x hx)

/-- **Statements** whose variables are seen. -/
theorem couples_execute {n : Node} (h : ∀ x, Node.Occurs (.var (some x)) n → V.sees x)
    (hmode : V.Complete ∨ (o.narrowing = .scoped ∧ n.loopFree = true)) :
    V.coupling.Couples (execute o n) (execute o n) := by
  have hnarrowing : V.Complete ∨ o.narrowing = .scoped := hmode.imp_right And.left
  induction n using statement_induction o with
  | assign left right =>
    exact couples_assign hnarrowing fun x hx => h x (.inside (by simp [Node.children]) hx)
  | echo arguments =>
    rw [execute_echo]
    exact couples_echo hnarrowing arguments
  | cond test body alternate hbody halternate =>
    rw [execute_cond]
    refine Coupling.Couples.branch _ ((Coupling.Couples.sequential V.coupling).body (fun n hn => ?_) false)
      ((Coupling.Couples.sequential V.coupling).alternate fun ns hns n hn => ?_)
    · refine hbody n hn (fun x hx => h x (.inside (by simp [Node.children, hn]) hx)) ?_
      refine hmode.imp_right (And.imp_right fun hfree => ?_)
      rw [Node.loopFree, Bool.and_eq_true] at hfree
      exact Node.loopFree_of_mem hfree.1 n hn
    · refine halternate ns hns n hn
        (fun x hx => h x (.inside (by simp [Node.children, Option.mem_def.1 hns, hn]) hx)) ?_
      refine hmode.imp_right (And.imp_right fun hfree => ?_)
      rw [Node.loopFree, Bool.and_eq_true] at hfree
      exact Node.loopFree_of_mem_alternate hfree.2 ns hns n hn
  | loop test body hbody =>
    have hV : V.Complete := by
      obtain hV | ⟨-, hfree⟩ := hmode
      · exact hV
      · simp [Node.loopFree] at hfree
    have hsees : ∀ x, Node.OccursIn (.var (some x)) body → V.sees x := by
      rintro x ⟨n, hn, hx⟩
      exact h x (.inside (by simp [Node.children, hn]) hx)
    have hiteration : V.coupling.Couples (executeBody o .loop false body) (executeBody o .loop false body) := by
      refine (Coupling.Couples.sequential V.coupling).body (fun n hn => ?_) false
      exact hbody n hn (fun x hx => hsees x ⟨n, hn, hx⟩) (.inl hV)
    exact hiteration.loop (fun s t hst => weight_le_iff_of_complete hV hsees hiteration hst) test test
  | block children hchildren =>
    rw [execute_block]
    refine (Coupling.Couples.sequential V.coupling).all fun n hn => ?_
    refine hchildren n hn (fun x hx => h x (.inside hn hx)) ?_
    refine hmode.imp_right (And.imp_right fun hfree => ?_)
    rw [Node.loopFree] at hfree
    exact Node.loopFree_of_mem hfree n hn
  | inert n reason detail heq =>
    rw [funext heq]
    exact Coupling.Couples.fallback reason detail

theorem couples_executeAll {ns : List Node} (h : ∀ x, Node.OccursIn (.var (some x)) ns → V.sees x)
    (hmode : V.Complete ∨ (o.narrowing = .scoped ∧ Node.loopFreeAll ns = true)) :
    V.coupling.Couples (executeAll o ns) (executeAll o ns) := by
  refine (Coupling.Couples.sequential V.coupling).all fun n hn => ?_
  refine couples_execute (fun x hx => h x ⟨n, hn, hx⟩) ?_
  exact hmode.imp_right (And.imp_right fun hfree => Node.loopFree_of_mem hfree n hn)

/-- In a complete view loops do not matter. -/
theorem couples_executeBody (hV : V.Complete) {ns : List Node}
    (h : ∀ x, Node.OccursIn (.var (some x)) ns → V.sees x) (c : Context) (started : Bool) :
    V.coupling.Couples (executeBody o c started ns) (executeBody o c started ns) :=
  (Coupling.Couples.sequential V.coupling).body
    (fun n hn => couples_execute (fun x hx => h x ⟨n, hn, hx⟩) (.inl hV)) started

end Execution

end View

end TaintFlow
