/-
  TaintFlow.Proofs.Joins
  ──────────────────────
  **Effects that distribute over joins.**

  A run joins a family of runs (`JoinOf`) if it has their patterns and guards, and if its
  variables, its marks and what it found are those of all of them together.

    • `Distributes`, `Gathers` — an effect, or an evaluation, takes joins to joins,
    • `gathers_evaluate` — every expression does: also the sinks and sanitizers in it,
    • `distributes_assign`, `distributes_echo` — and so do the statements without a body,
    • `joinOf_branch` — a conditional joins its two branches, each executed alone.

  All of this needs that reading an entry point leaves the patterns under consideration alone:
  otherwise one branch decides which patterns the next one sees.
-/
import TaintFlow.Proofs.Frame

namespace TaintFlow

/-! ## §1. What a run finds. -/

/-- The patterns that are listed as violated in a later run, but not yet in the earlier one. -/
def Run.violatedSince (b s : Run) : List String :=
  s.verdict.violatedPatterns.drop b.verdict.violatedPatterns.length

/-- The sanitizers that are listed in a later run, but not yet in the earlier one. -/
def Run.sanitizersSince (b s : Run) : List String :=
  s.verdict.sanitizersApplied.drop b.verdict.sanitizersApplied.length

/-- What a verdict lists. -/
inductive Verdict.Entry where
  | violation (pattern : String)
  | sanitizer (function : String)

/-- The later run has found this since the earlier one. -/
def Run.Finds (b s : Run) : Verdict.Entry → Prop
  | .violation p => p ∈ b.violatedSince s
  | .sanitizer f => f ∈ b.sanitizersSince s

/-- The output has this finding. -/
def Output.Has (d : Output) : Verdict.Entry → Prop
  | .violation p => p ∈ d.violated
  | .sanitizer f => f ∈ d.sanitizers

/-- The lists of the later run begin with those of the earlier one. -/
structure Run.Precedes (b s : Run) : Prop where
  violated : b.verdict.violatedPatterns <+: s.verdict.violatedPatterns
  sanitizers : b.verdict.sanitizersApplied <+: s.verdict.sanitizersApplied

namespace Run

variable {b s t : Run}

theorem Precedes.refl (s : Run) : s.Precedes s := ⟨List.prefix_refl _, List.prefix_refl _⟩

theorem Precedes.emit (h : b.Precedes s) (d : Output) : b.Precedes (s.emit d) where
  violated := h.violated.trans (List.prefix_append _ d.violated)
  sanitizers := h.sanitizers.trans (List.prefix_append _ d.sanitizers)

/-- Output adds its own findings and nothing else. -/
theorem finds_emit (h : b.Precedes s) (d : Output) (f : Verdict.Entry) :
    b.Finds (s.emit d) f ↔ b.Finds s f ∨ d.Has f := by
  cases f with
  | violation p =>
    show p ∈ (s.verdict.violatedPatterns ++ d.violated).drop _ ↔ _
    rw [List.drop_append_of_le_length h.violated.length_le, List.mem_append]
    rfl
  | sanitizer g =>
    show g ∈ (s.verdict.sanitizersApplied ++ d.sanitizers).drop _ ↔ _
    rw [List.drop_append_of_le_length h.sanitizers.length_le, List.mem_append]
    rfl

/-- Precedence and findings are matters of the verdict. -/
theorem Precedes.of_verdict (h : b.Precedes s) (hverdict : t.verdict = s.verdict) : b.Precedes t := by
  obtain ⟨hviolated, hsanitizers⟩ := h
  exact ⟨hverdict ▸ hviolated, hverdict ▸ hsanitizers⟩

theorem finds_of_verdict (hverdict : t.verdict = s.verdict) (f : Verdict.Entry) : b.Finds t f ↔ b.Finds s f := by
  cases f <;> simp only [Finds, violatedSince, sanitizersSince, hverdict]

/-- The setting has no part in what is found. -/
theorem precedes_adopt_emit (h : b.Precedes s) (t : Run) (d : Output) : b.Precedes ((s.adopt t).emit d) := by
  have hadopt : b.Precedes (s.adopt t) := h.of_verdict rfl
  exact hadopt.emit d

theorem finds_adopt_emit (h : b.Precedes s) (t : Run) (d : Output) (f : Verdict.Entry) :
    b.Finds ((s.adopt t).emit d) f ↔ b.Finds s f ∨ d.Has f := by
  have hadopt : b.Precedes (s.adopt t) := h.of_verdict rfl
  have hverdict : (s.adopt t).verdict = s.verdict := rfl
  rw [finds_emit hadopt d f, finds_of_verdict hverdict f]

theorem env_emitIf (c : Prop) [Decidable c] (s : Run) (d : Output) : (if c then s.emit d else s).env = s.env := by
  split <;> rfl

end Run

/-! ## §2. Joins. -/

/-- The taint has the marks of all taints of the family together. -/
def Unites {ι : Type} (t : Taint) (is : List ι) (ts : ι → Taint) : Prop :=
  ∀ m, m ∈ t ↔ ∃ i ∈ is, m ∈ ts i

/-- **The run joins the runs of a family.**  Findings are those since the run `b`.  The registered
variables are compared only if they are tracked, because no taint depends on them. -/
structure JoinOf (tracked : Prop) (b s : Run) {ι : Type} (is : List ι) (run : ι → Run) : Prop where
  inhabited : ∃ i, i ∈ is
  active : ∀ i ∈ is, (run i).active = s.active
  guards : ∀ i ∈ is, (run i).guards = s.guards
  names : tracked → ∀ x, x ∈ s.env.names ↔ ∃ i ∈ is, x ∈ (run i).env.names
  taints : ∀ x, Unites (s.env.taintOf x) is fun i => (run i).env.taintOf x
  precedes : b.Precedes s
  precedes_all : ∀ i ∈ is, b.Precedes (run i)
  finds : ∀ f, b.Finds s f ↔ ∃ i ∈ is, b.Finds (run i) f

namespace Unites

variable {ι : Type} {is : List ι}

theorem const (h : ∃ i, i ∈ is) {t : Taint} {ts : ι → Taint} (heq : ∀ i ∈ is, ts i = t) : Unites t is ts := by
  intro m
  constructor
  · intro hm
    obtain ⟨i, hi⟩ := h
    exact ⟨i, hi, (heq i hi).symm ▸ hm⟩
  · rintro ⟨i, hi, hm⟩
    exact heq i hi ▸ hm

theorem union {t u : Taint} {ts us : ι → Taint} (ht : Unites t is ts) (hu : Unites u is us) :
    Unites (t ∪ u) is fun i => ts i ∪ us i := by
  intro m
  simp only [OrderedSet.mem_union, ht m, hu m]
  constructor
  · rintro (⟨i, hi, hm⟩ | ⟨i, hi, hm⟩)
    · exact ⟨i, hi, .inl hm⟩
    · exact ⟨i, hi, .inr hm⟩
  · rintro ⟨i, hi, hm | hm⟩
    · exact .inl ⟨i, hi, hm⟩
    · exact .inr ⟨i, hi, hm⟩

end Unites

namespace JoinOf

variable {tracked : Prop} {b s : Run} {ι : Type} {is : List ι} {run : ι → Run}

/-- Only which runs are in the family counts, not how it is indexed. -/
theorem reindex {κ : Type} {js : List κ} {run' : κ → Run} (h : JoinOf tracked b s is run)
    (hto : ∀ i ∈ is, ∃ j ∈ js, run' j = run i) (hfrom : ∀ j ∈ js, ∃ i ∈ is, run i = run' j) :
    JoinOf tracked b s js run' := by
  have hexists : ∀ p : Run → Prop, (∃ i ∈ is, p (run i)) ↔ ∃ j ∈ js, p (run' j) := by
    intro p
    constructor
    · rintro ⟨i, hi, hp⟩
      obtain ⟨j, hj, heq⟩ := hto i hi
      exact ⟨j, hj, heq ▸ hp⟩
    · rintro ⟨j, hj, hp⟩
      obtain ⟨i, hi, heq⟩ := hfrom j hj
      exact ⟨i, hi, heq ▸ hp⟩
  have hforall : ∀ p : Run → Prop, (∀ i ∈ is, p (run i)) → ∀ j ∈ js, p (run' j) := by
    intro p hp j hj
    obtain ⟨i, hi, heq⟩ := hfrom j hj
    exact heq ▸ hp i hi
  refine ⟨?_, hforall (·.active = s.active) h.active, hforall (·.guards = s.guards) h.guards,
    fun htracked x => ?_, fun x m => ?_, h.precedes, hforall b.Precedes h.precedes_all, fun f => ?_⟩
  · obtain ⟨i, hi⟩ := h.inhabited
    obtain ⟨j, hj, -⟩ := hto i hi
    exact ⟨j, hj⟩
  · rw [h.names htracked x, hexists fun r => x ∈ r.env.names]
  · rw [h.taints x m, hexists fun r => m ∈ r.env.taintOf x]
  · rw [h.finds f, hexists fun r => b.Finds r f]

theorem congr {run' : ι → Run} (h : JoinOf tracked b s is run) (heq : ∀ i ∈ is, run' i = run i) :
    JoinOf tracked b s is run' :=
  h.reindex (fun i hi => ⟨i, hi, heq i hi⟩) fun i hi => ⟨i, hi, (heq i hi).symm⟩

/-- A run is the join of itself. -/
theorem single (tracked : Prop) (h : b.Precedes s) : JoinOf tracked b s [s] id := by
  refine ⟨⟨s, List.mem_singleton_self s⟩, ?_, ?_, fun _ x => ?_, fun x m => ?_, h, ?_, fun f => ?_⟩ <;> simp [h]

/-- Other environments, with their variables and marks joined. -/
theorem withEnv (h : JoinOf tracked b s is run) {e : Env String} {es : ι → Env String}
    (hnames : tracked → ∀ x, x ∈ e.names ↔ ∃ i ∈ is, x ∈ (es i).names)
    (htaints : ∀ x, Unites (e.taintOf x) is fun i => (es i).taintOf x) :
    JoinOf tracked b (s.withEnv e) is fun i => (run i).withEnv (es i) where
  inhabited := h.inhabited
  active := h.active
  guards := h.guards
  names := hnames
  taints := htaints
  precedes := h.precedes.of_verdict rfl
  precedes_all i hi := (h.precedes_all i hi).of_verdict rfl
  finds f := by
    have hsame : ∀ (t : Run) (u : Env String), b.Finds (t.withEnv u) f ↔ b.Finds t f := fun t u =>
      Run.finds_of_verdict rfl f
    simp only [hsame]
    exact h.finds f

/-- Output that depends on a condition: the join has it if one of the family has it. -/
theorem emitIf (h : JoinOf tracked b s is run) (d : Output) {c : Prop} {cs : ι → Prop} [Decidable c]
    [∀ i, Decidable (cs i)] (hc : c ↔ ∃ i ∈ is, cs i) :
    JoinOf tracked b (if c then s.emit d else s) is fun i => if cs i then (run i).emit d else run i where
  inhabited := h.inhabited
  active i hi := by split <;> split <;> exact h.active i hi
  guards i hi := by split <;> split <;> exact h.guards i hi
  names htracked x := by
    simp only [Run.env_emitIf]
    exact h.names htracked x
  taints x := by
    simp only [Run.env_emitIf]
    exact h.taints x
  precedes := by
    split
    · exact h.precedes.emit d
    · exact h.precedes
  precedes_all i hi := by
    show b.Precedes (if cs i then (run i).emit d else run i)
    split
    · exact (h.precedes_all i hi).emit d
    · exact h.precedes_all i hi
  finds f := by
    have hif : ∀ (p : Prop) [Decidable p] (t : Run), b.Precedes t →
        (b.Finds (if p then t.emit d else t) f ↔ b.Finds t f ∨ (p ∧ d.Has f)) := by
      intro p _ t ht
      by_cases hp : p
      · rw [if_pos hp, Run.finds_emit ht d f]
        simp [hp]
      · rw [if_neg hp]
        simp [hp]
    rw [hif c s h.precedes, h.finds f, hc]
    constructor
    · rintro (⟨i, hi, hf⟩ | ⟨⟨i, hi, hcs⟩, hf⟩)
      · exact ⟨i, hi, (hif (cs i) (run i) (h.precedes_all i hi)).2 (.inl hf)⟩
      · exact ⟨i, hi, (hif (cs i) (run i) (h.precedes_all i hi)).2 (.inr ⟨hcs, hf⟩)⟩
    · rintro ⟨i, hi, hf⟩
      obtain hf | ⟨hcs, hf⟩ := (hif (cs i) (run i) (h.precedes_all i hi)).1 hf
      · exact .inl ⟨i, hi, hf⟩
      · exact .inr ⟨⟨i, hi, hcs⟩, hf⟩

theorem emit (h : JoinOf tracked b s is run) (d : Output) :
    JoinOf tracked b (s.emit d) is fun i => (run i).emit d := by
  have htrue : True ↔ ∃ i ∈ is, True := by simpa using h.inhabited
  simpa using h.emitIf d htrue

/-- Registering the same variables everywhere. -/
theorem names_or (h : JoinOf tracked b s is run) (htracked : tracked) (p : Prop) (y : String) :
    (p ∨ y ∈ s.env.names) ↔ ∃ i ∈ is, p ∨ y ∈ (run i).env.names := by
  rw [h.names htracked y]
  constructor
  · rintro (hp | ⟨i, hi, hy⟩)
    · obtain ⟨i, hi⟩ := h.inhabited
      exact ⟨i, hi, .inl hp⟩
    · exact ⟨i, hi, .inr hy⟩
  · rintro ⟨i, hi, hp | hy⟩
    · exact .inl hp
    · exact .inr ⟨i, hi, hy⟩

theorem declare (h : JoinOf tracked b s is run) (x : String) :
    JoinOf tracked b (s.withEnv (s.env.declare x)) is fun i => (run i).withEnv ((run i).env.declare x) := by
  refine h.withEnv (fun htracked y => ?_) fun y => ?_
  · simp only [Env.mem_names_declare]
    exact h.names_or htracked (y = x) y
  · simp only [Env.taintOf_declare]
    exact h.taints y

/-- Variables get new taints: the same variables everywhere, with taints that are joined. -/
theorem overwrite (h : JoinOf tracked b s is run) {e : Env String} {es : ι → Env String} (xs : List String)
    {t : Taint} {ts : ι → Taint} (ht : Unites t is ts)
    (hnames : ∀ y, y ∈ e.names ↔ y ∈ xs ∨ y ∈ s.env.names)
    (hnames' : ∀ i y, y ∈ (es i).names ↔ y ∈ xs ∨ y ∈ (run i).env.names)
    (htaint : ∀ y, e.taintOf y = if y ∈ xs then t else s.env.taintOf y)
    (htaint' : ∀ i y, (es i).taintOf y = if y ∈ xs then ts i else (run i).env.taintOf y) :
    JoinOf tracked b (s.withEnv e) is fun i => (run i).withEnv (es i) := by
  refine h.withEnv (fun htracked y => ?_) fun y => ?_
  · simp only [hnames, hnames']
    exact h.names_or htracked (y ∈ xs) y
  · simp only [htaint, htaint']
    split
    · exact ht
    · exact h.taints y

end JoinOf

/-! ## §3. Effects that distribute. -/

/-- The effect takes joins to joins. -/
structure Distributes (f : Run → Run) : Prop where
  join {tracked : Prop} {b s : Run} {ι : Type} {is : List ι} {run : ι → Run} :
    JoinOf tracked b s is run → JoinOf tracked b (f s) is fun i => f (run i)

/-- The evaluation takes joins to joins, and its taint for the join has the marks of its taints for
the family. -/
structure Gathers (e : Run → Taint × Run) : Prop where
  join {tracked : Prop} {b s : Run} {ι : Type} {is : List ι} {run : ι → Run} : JoinOf tracked b s is run →
    (Unites (e s).1 is fun i => (e (run i)).1) ∧ JoinOf tracked b (e s).2 is fun i => (e (run i)).2

namespace Distributes

theorem idle : Distributes id := ⟨fun h => h⟩

theorem andThen {f g : Run → Run} (hf : Distributes f) (hg : Distributes g) : Distributes (g ∘ f) :=
  ⟨fun h => hg.join (hf.join h)⟩

theorem foldl {α : Type} {f : Run → α → Run} (hf : ∀ a, Distributes fun s => f s a) (l : List α) :
    Distributes fun s => l.foldl f s := by
  induction l with
  | nil => exact idle
  | cons a l ih => exact andThen (hf a) ih

theorem emit (d : Output) : Distributes fun s => s.emit d := ⟨fun h => h.emit d⟩

theorem fallback (reason detail : String) : Distributes fun s => s.fallback reason detail := by
  simp only [Run.fallback_eq_emit]
  exact emit _

/-- It is enough that, for given patterns and guards, the effect is one that distributes. -/
theorem of_setting {f : Run → Run} (h : ∀ (active : List Pattern) (guards : List String), ∃ g, Distributes g ∧
    ∀ t : Run, t.active = active → t.guards = guards → f t = g t) : Distributes f := by
  refine ⟨fun {tracked b s ι is run} hjoin => ?_⟩
  obtain ⟨g, hg, heq⟩ := h s.active s.guards
  rw [heq s rfl rfl]
  exact (hg.join hjoin).congr fun i hi => heq (run i) (hjoin.active i hi) (hjoin.guards i hi)

end Distributes

namespace Gathers

/-- It is enough that, for given patterns and guards, the evaluation is one that gathers. -/
theorem of_setting {e : Run → Taint × Run} (h : ∀ (active : List Pattern) (guards : List String), ∃ g, Gathers g ∧
    ∀ t : Run, t.active = active → t.guards = guards → e t = g t) : Gathers e := by
  refine ⟨fun {tracked b s ι is run} hjoin => ?_⟩
  obtain ⟨g, hg, heq⟩ := h s.active s.guards
  have hall : ∀ i ∈ is, e (run i) = g (run i) := fun i hi =>
    heq (run i) (hjoin.active i hi) (hjoin.guards i hi)
  obtain ⟨htaint, hrun⟩ := hg.join hjoin
  rw [heq s rfl rfl]
  refine ⟨fun m => ?_, hrun.congr fun i hi => by rw [hall i hi]⟩
  rw [htaint m]
  refine exists_congr fun i => and_congr_right fun hi => ?_
  show m ∈ (g (run i)).1 ↔ m ∈ (e (run i)).1
  rw [hall i hi]

/-- An effect that distributes, with a taint that is the same for all runs. -/
theorem const {f : Run → Run} (hf : Distributes f) (t : Taint) : Gathers fun s => (t, f s) := by
  refine ⟨fun h => ?_⟩
  exact ⟨Unites.const h.inhabited fun _ _ => rfl, hf.join h⟩

/-- One evaluation after another, with the marks of both. -/
theorem union {e e' : Run → Taint × Run} (he : Gathers e) (he' : Gathers e') :
    Gathers fun s => ((e s).1 ∪ (e' (e s).2).1, (e' (e s).2).2) := by
  refine ⟨fun h => ?_⟩
  obtain ⟨htaint, hrun⟩ := he.join h
  obtain ⟨htaint', hrun'⟩ := he'.join hrun
  exact ⟨htaint.union htaint', hrun'⟩

end Gathers

/-! ## §4. Evaluation. -/

theorem gathers_read (x : String) : Gathers fun s => s.read x := by
  refine ⟨fun h => ?_⟩
  exact ⟨h.taints x, h.declare x⟩

theorem gathers_literalTaint (o : Options) (value : String) : Gathers fun s => s.literalTaint o value := by
  refine Gathers.of_setting fun active guards => ?_
  by_cases hguard : o.guardedLiterals = true ∧ guards.head? = some value
  · refine ⟨_, Gathers.const (Distributes.emit { events := [.guardedLiteral value] })
      (.ofList (active.map (·.name))), fun t hactive hguards => ?_⟩
    unfold Run.literalTaint Run.guard? Run.activeNames
    rw [hactive, hguards, if_pos hguard, Run.log_eq_emit]
  · refine ⟨_, Gathers.const Distributes.idle ∅, fun t hactive hguards => ?_⟩
    unfold Run.literalTaint Run.guard?
    rw [hguards, if_neg hguard]
    rfl

theorem gathers_interpolate (parts : List Node) : ∀ {tracked : Prop} {b s : Run} {ι : Type} {is : List ι}
    {run : ι → Run} {t : Taint} {ts : ι → Taint}, JoinOf tracked b s is run → Unites t is ts →
      (Unites (Run.interpolate t parts s).1 is fun i => (Run.interpolate (ts i) parts (run i)).1) ∧
        JoinOf tracked b (Run.interpolate t parts s).2 is fun i => (Run.interpolate (ts i) parts (run i)).2 := by
  induction parts with
  | nil => exact fun h ht => ⟨ht, h⟩
  | cons n rest ih =>
    intro tracked b s ι is run t ts h ht
    by_cases hn : ∃ x, n = .var (some x)
    · obtain ⟨x, rfl⟩ := hn
      obtain ⟨hread, hrun⟩ := (gathers_read x).join h
      exact ih hrun (ht.union hread)
    · simp only [interpolate_cons_of_ne fun x hx => hn ⟨x, hx⟩]
      exact ih h ht

theorem distributes_checkArgument (function : String) (p : Pattern) (x : String) :
    Distributes fun s => Run.checkArgument function p s x := by
  refine ⟨fun h => ?_⟩
  obtain ⟨hread, hrun⟩ := (gathers_read x).join h
  -- the join reports the pattern exactly if a run of the family does
  have hreport := hrun.emitIf { violated := [p.name], events := [.taintedCall x function p.name] } (hread p.name)
  simpa only [Run.checkArgument, Run.report_eq_emit] using hreport

theorem distributes_applySanitizer (function : String) (names : List String) :
    Distributes fun s => s.applySanitizer function names := by
  refine ⟨fun {tracked b s ι is run} h => ?_⟩
  simp only [Run.applySanitizer_eq_emit]
  exact (h.overwrite names (Unites.const h.inhabited fun _ _ => rfl) (fun y => Env.mem_names_foldl_sanitize)
    (fun i y => Env.mem_names_foldl_sanitize) (fun y => Env.taintOf_foldl_sanitize names s.env y)
    fun i y => Env.taintOf_foldl_sanitize names (run i).env y).emit _

/-- The variables among the arguments are the same for all runs; only unnamed ones are counted. -/
theorem namedArguments_eq (arguments : List Node) : ∃ names : List String, ∃ f : Run → Run, Distributes f ∧
    ∀ s, Run.namedArguments arguments s = (names, f s) := by
  induction arguments with
  | nil => exact ⟨[], id, Distributes.idle, fun _ => rfl⟩
  | cons n rest ih =>
    obtain ⟨names, f, hf, heq⟩ := ih
    match n with
    | .var (some x) => exact ⟨x :: names, f, hf, fun s => by simp only [Run.namedArguments, heq]⟩
    | .var none =>
      refine ⟨names, _, (Distributes.fallback "variable_without_name" "").andThen hf, fun s => ?_⟩
      simp only [Run.namedArguments, heq, Function.comp_apply]
    | .unknown .. | .string _ | .offsetLookup .. | .bin .. | .call .. | .encapsed _ | .assign .. | .echo _
    | .cond .. | .loop .. | .block _ => exact ⟨names, f, hf, fun s => by simp only [Run.namedArguments, heq]⟩

theorem distributes_call (function : String) (arguments : List Node) :
    Distributes fun s => s.call function arguments := by
  refine Distributes.of_setting fun active guards => ?_
  by_cases hnone : Catalog.withSink function active = [] ∧ Catalog.withSanitizer function active = []
  · exact ⟨id, Distributes.idle, fun t hactive _ => call_of_none (hactive ▸ hnone) arguments⟩
  · obtain ⟨names, f, hf, heq⟩ := namedArguments_eq arguments
    have hsinks : Distributes fun s => (Catalog.withSink function active).foldl (Run.checkSink function names) (f s) :=
      hf.andThen (Distributes.foldl (fun p => Distributes.foldl (distributes_checkArgument function p) names) _)
    by_cases hclean : Catalog.withSanitizer function active = [] ∨ names = []
    · refine ⟨_, hsinks, fun t hactive _ => ?_⟩
      rw [call_of_some (hactive ▸ hnone), hactive, heq t, if_pos hclean]
    · refine ⟨_, hsinks.andThen (distributes_applySanitizer function names), fun t hactive _ => ?_⟩
      rw [call_of_some (hactive ▸ hnone), hactive, heq t, if_neg hclean]
      rfl

section Scoped

variable {o : Options} (hscoped : o.narrowing = .scoped)
include hscoped

theorem lookupPatterns_of_scoped (s : Run) (name : String) :
    s.lookupPatterns o (some name) = (Catalog.withEntryPoint (o.entryPointSign ++ name) s.active, s) := by
  unfold Run.lookupPatterns Run.queryEntryPoint
  rw [hscoped]

theorem gathers_evaluate (n : Node) : Gathers (evaluate o n) := by
  induction n using expression_induction o with
  | lookup name offset =>
    rw [evaluate_lookup]
    cases name with
    | none => exact Gathers.const (Distributes.fallback "offsetlookup_without_name" "") (.ofList [])
    | some name =>
      refine Gathers.of_setting fun active guards => ?_
      refine ⟨_, Gathers.const Distributes.idle
        (.ofList ((Catalog.withEntryPoint (o.entryPointSign ++ name) active).map (·.name))), fun t hactive _ => ?_⟩
      rw [lookupPatterns_of_scoped hscoped, hactive]
      rfl
  | concat left right hleft hright =>
    rw [evaluate_concat]
    exact hleft.union hright
  | literal value =>
    rw [evaluate_literal]
    exact gathers_literalTaint o value
  | encapsed parts =>
    rw [evaluate_encapsed]
    exact ⟨fun h => gathers_interpolate parts h (Unites.const h.inhabited fun _ _ => rfl)⟩
  | read x =>
    rw [evaluate_read]
    exact gathers_read x
  | pass function argument rest hpass ih =>
    rw [evaluate_pass hpass]
    exact ih
  | call function arguments hpass =>
    rw [evaluate_call hpass]
    exact Gathers.const (distributes_call function arguments) ∅
  | idle n h =>
    rw [funext h]
    exact Gathers.const Distributes.idle ∅
  | inert n reason detail h =>
    rw [funext h]
    exact Gathers.const (Distributes.fallback reason detail) ∅

/-! ## §5. Statements. -/

theorem distributes_assign (left right : Node) : Distributes (execute o (.assign left right)) := by
  rw [execute_assign]
  refine ⟨fun {tracked b s ι is run} h => ?_⟩
  obtain ⟨htaint, hrun⟩ := (gathers_evaluate hscoped right).join h
  by_cases hleft : ∃ x, left = .var (some x)
  · obtain ⟨x, rfl⟩ := hleft
    refine hrun.overwrite [x] htaint (fun y => ?_) (fun i y => ?_) (fun y => ?_) fun i y => ?_
    · simp [Env.mem_names_assign, Env.mem_names_declare]
    · simp [Env.mem_names_assign, Env.mem_names_declare]
    · simp [Env.taintOf_assign]
    · simp [Env.taintOf_assign]
  · have hfallback : ∀ (t : Run) (u : Taint), t.assign left u = t.fallback "assign_without_target" left.kindName := by
      intro t u
      rw [Run.assign]
      exact fun x hx => hleft ⟨x, hx⟩
    simp only [hfallback]
    exact (Distributes.fallback _ _).join hrun

theorem distributes_echoLookup (name : Option String) : Distributes fun s => s.echoLookup o name := by
  cases name with
  | none => exact Distributes.fallback "offsetlookup_without_name" ""
  | some name =>
    refine Distributes.of_setting fun active guards => ?_
    refine ⟨_, Distributes.foldl (f := fun s p => if o.echoSink ∈ p.sinks then
        s.emit { violated := [p.name], events := [.taintedOutput name p.name] } else s) (fun p => ?_)
      (Catalog.withEntryPoint (o.entryPointSign ++ name) active), fun t hactive _ => ?_⟩
    · by_cases hsink : o.echoSink ∈ p.sinks
      · simp only [if_pos hsink]
        exact Distributes.emit _
      · simp only [if_neg hsink]
        exact Distributes.idle
    · unfold Run.echoLookup
      rw [lookupPatterns_of_scoped hscoped, hactive]
      simp only [Run.report_eq_emit]
      rfl

theorem distributes_echo (arguments : List Node) : Distributes (Run.echo o arguments) := by
  induction arguments with
  | nil => exact Distributes.idle
  | cons n rest ih =>
    match n with
    | .offsetLookup name _ => exact (distributes_echoLookup hscoped name).andThen ih
    | .unknown .. | .var _ | .string _ | .bin .. | .call .. | .encapsed _ | .assign .. | .echo _
    | .cond .. | .loop .. | .block _ => exact ih

/-! ## §6. Conditionals. -/

omit hscoped in
/-- What was found stays found. -/
theorem Framed.precedes {f : Run → Run} (hf : Framed o f) {b s : Run} (hb : b.Precedes s) : b.Precedes (f s) := by
  obtain ⟨d, hd⟩ := hf.output s
  rw [hd s (Run.Agrees.refl s)]
  exact Run.precedes_adopt_emit hb (f s) d

omit hscoped in
theorem Framed.finds {f : Run → Run} (hf : Framed o f) {b s : Run} (hb : b.Precedes s) {φ : Verdict.Entry}
    (hφ : b.Finds s φ) : b.Finds (f s) φ := by
  obtain ⟨d, hd⟩ := hf.output s
  rw [hd s (Run.Agrees.refl s), Run.finds_adopt_emit hb]
  exact .inl hφ

/-- The second branch starts in the setting of the first one, with the output of the first one
before its own. -/
theorem second_branch {first second : Run → Run} (hfirst : Framed o first) (hsecond : Framed o second)
    (guard : Option String) (s : Run) : ∃ d : Output,
      second (s.enter guard) = ((s.enter guard).adopt (second (s.enter guard))).emit d ∧
      second ((first (s.enter guard)).withEnv s.env)
        = ((first (s.enter guard)).adopt (second (s.enter guard))).emit d := by
  have hleads := hfirst.leads (s.enter guard)
  obtain ⟨d, hd⟩ := hsecond.output (s.enter guard)
  have hagrees : ((first (s.enter guard)).withEnv s.env).Agrees (s.enter guard) :=
    ⟨hleads.fixed hscoped, (s.env_enter guard).symm, hleads.guards⟩
  exact ⟨d, hd _ (Run.Agrees.refl _), hd _ hagrees⟩

/-- The environment after a conditional joins those of its branches, each executed alone. -/
theorem env_branch {first second : Run → Run} (hfirst : Framed o first) (hsecond : Framed o second)
    (guard : Option String) (s : Run) : (branch guard first second s).env
      = (first (s.enter guard)).env.join (second (s.enter guard)).env := by
  obtain ⟨d, -, hd⟩ := second_branch hscoped hfirst hsecond guard s
  show (first (s.enter guard)).env.join (second ((first (s.enter guard)).withEnv s.env)).env = _
  rw [hd]
  rfl

/-- A conditional finds what one of its branches finds alone. -/
theorem finds_branch {first second : Run → Run} (hfirst : Framed o first) (hsecond : Framed o second)
    {b s : Run} (hb : b.Precedes s) (guard : Option String) (φ : Verdict.Entry) :
    b.Finds (branch guard first second s) φ
      ↔ b.Finds (first (s.enter guard)) φ ∨ b.Finds (second (s.enter guard)) φ := by
  obtain ⟨d, hd, hd'⟩ := second_branch hscoped hfirst hsecond guard s
  have henter : b.Precedes (s.enter guard) := hb.of_verdict (s.verdict_enter guard)
  have hverdict : (branch guard first second s).verdict
      = (((first (s.enter guard)).adopt (second (s.enter guard))).emit d).verdict := by
    show (Run.leave (second ((first (s.enter guard)).withEnv s.env)) guard).verdict = _
    rw [Run.verdict_leave, hd']
  -- what the second branch alone has found is what was found before it and what it adds
  have hsplit : b.Finds (second (s.enter guard)) φ ↔ b.Finds (s.enter guard) φ ∨ d.Has φ := by
    rw [hd, Run.finds_adopt_emit henter]
  have hkept : b.Finds (s.enter guard) φ → b.Finds (first (s.enter guard)) φ := hfirst.finds henter
  rw [Run.finds_of_verdict hverdict, Run.finds_adopt_emit (hfirst.precedes henter), hsplit]
  tauto

/-- **A conditional joins its two branches**, each executed alone from the state before it. -/
theorem joinOf_branch {first second : Run → Run} (hfirst : Framed o first) (hsecond : Framed o second)
    {tracked : Prop} {b s : Run} (hb : b.Precedes s) (guard : Option String) {rs ts : List Run}
    (hrs : JoinOf tracked b (first (s.enter guard)) rs id)
    (hts : JoinOf tracked b (second (s.enter guard)) ts id) :
    JoinOf tracked b (branch guard first second s) (rs ++ ts) fun r => r.leave guard := by
  have hleads := leads_branch guard hfirst hsecond s
  have henv := env_branch hscoped hfirst hsecond guard s
  have hsetting : ∀ r ∈ rs ++ ts, r.active = (s.enter guard).active ∧ r.guards = (s.enter guard).guards := by
    intro r hr
    obtain hr | hr := List.mem_append.1 hr
    · have hl := hfirst.leads (s.enter guard)
      exact ⟨(hrs.active r hr).trans (hl.fixed hscoped), (hrs.guards r hr).trans hl.guards⟩
    · have hl := hsecond.leads (s.enter guard)
      exact ⟨(hts.active r hr).trans (hl.fixed hscoped), (hts.guards r hr).trans hl.guards⟩
  have hmem : ∀ p : Run → Prop, (∃ r ∈ rs ++ ts, p r) ↔ (∃ r ∈ rs, p r) ∨ ∃ r ∈ ts, p r := by
    intro p
    simp only [List.mem_append, or_and_right, exists_or]
  refine ⟨?_, fun r hr => ?_, fun r hr => ?_, fun htracked x => ?_, fun x m => ?_, ?_, fun r hr => ?_, fun φ => ?_⟩
  · obtain ⟨r, hr⟩ := hrs.inhabited
    exact ⟨r, List.mem_append_left ts hr⟩
  · rw [hleads.fixed hscoped]
    have hactive := (hsetting r hr).1
    cases guard <;> exact hactive
  · rw [hleads.guards]
    have hguards := (hsetting r hr).2
    cases guard with
    | none => exact hguards
    | some literal => exact congrArg List.tail hguards
  · rw [henv, Env.mem_names_join, hrs.names htracked x, hts.names htracked x, hmem]
    simp only [Run.env_leave, id]
  · rw [henv, Env.mem_taintOf_join, hrs.taints x m, hts.taints x m, hmem]
    simp only [Run.env_leave, id]
  · exact (framed_branch guard hfirst hsecond).precedes hb
  · obtain hr | hr := List.mem_append.1 hr
    · exact (hrs.precedes_all r hr).of_verdict (r.verdict_leave guard)
    · exact (hts.precedes_all r hr).of_verdict (r.verdict_leave guard)
  · rw [finds_branch hscoped hfirst hsecond hb guard φ, hrs.finds φ, hts.finds φ, hmem]
    simp only [Run.finds_of_verdict (Run.verdict_leave _ guard), id]

end Scoped

end TaintFlow
