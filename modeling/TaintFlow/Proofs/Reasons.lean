/-
  TaintFlow.Proofs.Reasons
  ────────────────────────
  **The reasons for which an analysis can give up on something.**

  An analysis that meets something it cannot make sense of counts it under one of nine reasons
  and goes on.

    • `analysisReasons` — the list of them,
    • `recognized_executionSteps` — no step of an execution gives up for another reason,
    • `Program.count_run_of_notMem` — so an analysis leaves every other count as it was.
-/
import TaintFlow.Proofs.Steps

namespace TaintFlow

/-- The reasons for which an analysis can give up on something. -/
def analysisReasons : List String :=
  ["offsetlookup_without_name", "variable_without_name", "call_without_name", "unknown_expression",
   "assign_without_target", "unknown_statement", "ignored_statement", Context.branch.skipReason,
   Context.loop.skipReason]

/-! ## §1. Steps. -/

/-- If the step gives up on something, then for one of these reasons. -/
def Step.Recognized : Step → Prop
  | fallback reason _ => reason ∈ analysisReasons
  | _ => True

theorem Step.recognized_fallback {reason : String} (h : reason ∈ analysisReasons) (detail : String) :
    (fallback reason detail).Recognized := h

/-- A recognized step leaves the counts of all other reasons as they were. -/
theorem Step.count_apply_of_notMem {a : Step} (ha : a.Recognized) {reason : String} (h : reason ∉ analysisReasons)
    (o : Options) (s : Run) : (a.apply o s).diagnostics.count reason = s.diagnostics.count reason := by
  cases a with
  | fallback other detail =>
    have hne : reason ≠ other := fun heq => h (heq ▸ ha)
    show (s.diagnostics.record other).count reason = _
    rw [Tally.count_record, if_neg hne, Int.add_zero]
  | query entryPoint =>
    show (s.queryEntryPoint o.narrowing entryPoint).2.diagnostics.count reason = _
    cases o.narrowing <;> rfl
  | literal value =>
    show (s.literalTaint o value).2.diagnostics.count reason = _
    unfold Run.literalTaint
    split <;> rfl
  | check function p x =>
    show (Run.checkArgument function p s x).diagnostics.count reason = _
    unfold Run.checkArgument
    dsimp only
    split <;> rfl
  | enter guard => cases guard <;> rfl
  | leave guard => cases guard <;> rfl
  | read | report | clean | store | environment | settled => rfl

/-- **All steps.** -/
theorem Run.count_perform_of_notMem {l : List Step} (hl : ∀ a ∈ l, a.Recognized) {reason : String}
    (h : reason ∉ analysisReasons) (o : Options) (s : Run) :
    (s.perform o l).diagnostics.count reason = s.diagnostics.count reason := by
  induction l generalizing s with
  | nil => rfl
  | cons a l ih =>
    rw [Run.perform_cons, ih fun b hb => hl b (List.mem_cons_of_mem a hb)]
    exact Step.count_apply_of_notMem (hl a List.mem_cons_self) h o s

/-! ## §2. Scripts. -/

/-- From wherever the script starts, its steps are recognized. -/
def Script.Recognized (a : Script) : Prop := ∀ s, ∀ x ∈ a s, x.Recognized

namespace Script.Recognized

variable {o : Options} {a b : Script}

theorem idle : Recognized fun _ => [] := fun _ _ hx => nomatch hx

theorem fallback {reason : String} (h : reason ∈ analysisReasons) (detail : String) :
    Recognized fun _ => [.fallback reason detail] :=
  fun _ => List.forall_mem_singleton.2 (Step.recognized_fallback h detail)

theorem andThen (ha : Recognized a) (hb : Recognized b) : Recognized (a.andThen o b) :=
  fun s => List.forall_mem_append.2 ⟨ha s, hb _⟩

theorem branch (guard : Option String) (ha : Recognized a) (hb : Recognized b) :
    Recognized (branchSteps o guard a b) := by
  intro s
  refine List.forall_mem_append.2 ⟨List.forall_mem_append.2 ⟨?_, ?_⟩, ?_⟩
  · exact List.forall_mem_cons.2 ⟨trivial, ha _⟩
  · exact List.forall_mem_cons.2 ⟨trivial, hb _⟩
  · exact List.forall_mem_cons.2 ⟨trivial, List.forall_mem_cons.2 ⟨trivial, fun _ hx => nomatch hx⟩⟩

theorem rounds (ha : Recognized a) (limit : Nat) : Recognized (roundSteps o a limit) := by
  induction limit with
  | zero => exact idle
  | succ limit ih =>
    intro s
    rw [roundSteps]
    split
    · exact List.forall_mem_append.2 ⟨ha s, ih _⟩
    · exact ha s

theorem loop (ha : Recognized a) (limit : Run → Nat) : Recognized (loopSteps o a limit) := by
  intro s
  exact List.forall_mem_append.2 ⟨ha.rounds (limit s) s, List.forall_mem_cons.2 ⟨trivial, fun _ hx => nomatch hx⟩⟩

end Script.Recognized

section

variable (o : Options)

theorem recognized_lookupSteps (name : Option String) : ∀ x ∈ lookupSteps o name, x.Recognized := by
  cases name with
  | none => exact List.forall_mem_singleton.2 (Step.recognized_fallback (by decide) _)
  | some name => exact List.forall_mem_singleton.2 trivial

theorem recognized_interpolationSteps (parts : List Node) : ∀ x ∈ interpolationSteps parts, x.Recognized := by
  fun_induction interpolationSteps parts with
  | case1 => simp
  | case2 x rest ih => exact List.forall_mem_cons.2 ⟨trivial, ih⟩
  | case3 n rest _ ih => exact ih

theorem recognized_argumentSteps (arguments : List Node) : ∀ x ∈ argumentSteps arguments, x.Recognized := by
  fun_induction argumentSteps arguments with
  | case1 => simp
  | case2 rest ih => exact List.forall_mem_cons.2 ⟨Step.recognized_fallback (by decide) _, ih⟩
  | case3 n rest _ ih => exact ih

theorem recognized_callSteps (function : String) (arguments : List Node) :
    (callSteps function arguments).Recognized := by
  intro s
  unfold callSteps
  dsimp only
  split
  · simp
  · refine List.forall_mem_append.2 ⟨List.forall_mem_append.2 ⟨recognized_argumentSteps arguments, ?_⟩, ?_⟩
    · intro x hx
      obtain ⟨p, -, hp⟩ := List.mem_flatMap.1 hx
      obtain ⟨y, -, rfl⟩ := List.mem_map.1 hp
      trivial
    · split
      · simp
      · exact List.forall_mem_singleton.2 trivial

/-- **Expressions.** -/
theorem recognized_evaluationSteps (n : Node) : (evaluationSteps o n).Recognized := by
  induction n using Node.induction with
  | step n ih =>
    cases n with
    | offsetLookup name offset => exact fun _ => recognized_lookupSteps o name
    | bin operator left right =>
      rw [evaluationSteps]
      split
      · exact (ih left (by simp [Node.children])).andThen (ih right (by simp [Node.children]))
      · exact Script.Recognized.idle
    | string value => exact fun _ => List.forall_mem_singleton.2 trivial
    | encapsed parts => exact fun _ => recognized_interpolationSteps parts
    | var name =>
      cases name with
      | none => exact Script.Recognized.fallback (by decide) _
      | some x => exact fun _ => List.forall_mem_singleton.2 trivial
    | call name arguments =>
      cases name with
      | none => exact Script.Recognized.fallback (by decide) _
      | some function =>
        rw [evaluationSteps]
        split
        · cases arguments with
          | nil => exact Script.Recognized.idle
          | cons n rest => exact ih n (by simp [Node.children])
        · exact recognized_callSteps function arguments
    | unknown | assign | echo | cond | loop | block => exact Script.Recognized.fallback (by decide) _

theorem recognized_echoSteps (arguments : List Node) : (echoSteps o arguments).Recognized := by
  induction arguments with
  | nil => exact Script.Recognized.idle
  | cons n rest ih =>
    match n with
    | .offsetLookup name _ =>
      refine Script.Recognized.andThen (fun s => ?_) ih
      refine List.forall_mem_append.2 ⟨recognized_lookupSteps o name, fun x hx => ?_⟩
      obtain ⟨p, -, rfl⟩ := List.mem_map.1 hx
      trivial
    | .unknown .. | .var _ | .string _ | .bin .. | .call .. | .encapsed _ | .assign .. | .echo _
    | .cond .. | .loop .. | .block _ => exact ih

variable {o}

theorem recognized_bodySteps {c : Context} (hc : c.skipReason ∈ analysisReasons) {ns : List Node}
    (h : ∀ n ∈ ns, (executionSteps o n).Recognized) : ∀ started, (bodySteps o c started ns).Recognized := by
  induction ns with
  | nil => exact fun _ => Script.Recognized.idle
  | cons n rest ih =>
    intro started
    have hrest := ih fun m hm => h m (List.mem_cons_of_mem n hm)
    rw [bodySteps]
    split
    · exact (h n List.mem_cons_self).andThen (hrest true)
    · exact (Script.Recognized.fallback hc _).andThen (hrest started)

theorem recognized_allSteps {ns : List Node} (h : ∀ n ∈ ns, (executionSteps o n).Recognized) :
    (allSteps o ns).Recognized := by
  induction ns with
  | nil => exact Script.Recognized.idle
  | cons n rest ih =>
    exact (h n List.mem_cons_self).andThen (ih fun m hm => h m (List.mem_cons_of_mem n hm))

/-- **Statements.** -/
theorem recognized_executionSteps (n : Node) : (executionSteps o n).Recognized := by
  induction n using Node.induction with
  | step n ih =>
    cases n with
    | assign left right =>
      intro s
      refine List.forall_mem_append.2 ⟨recognized_evaluationSteps o right s, ?_⟩
      unfold assignmentSteps
      split
      · exact List.forall_mem_singleton.2 trivial
      · exact List.forall_mem_singleton.2 (Step.recognized_fallback (by decide) _)
    | echo arguments => exact recognized_echoSteps o arguments
    | cond test body alternate =>
      refine Script.Recognized.branch _ ?_ ?_
      · exact recognized_bodySteps (by decide) (fun n hn => ih n (by simp [Node.children, hn])) false
      · cases alternate with
        | none => exact Script.Recognized.idle
        | some other => exact recognized_bodySteps (by decide) (fun n hn => ih n (by simp [Node.children, hn])) false
    | loop test body =>
      refine Script.Recognized.loop ?_ _
      exact recognized_bodySteps (by decide) (fun n hn => ih n (by simp [Node.children, hn])) false
    | block children => exact recognized_allSteps fun n hn => ih n hn
    | unknown | var | string | offsetLookup | bin | call | encapsed => exact Script.Recognized.fallback (by decide) _

end

/-! ## §3. Programs. -/

/-- **An analysis leaves the counts of all other reasons as they were.** -/
theorem Program.count_run_of_notMem (o : Options) (c : Catalog) (loading : Tally) (p : Program) {reason : String}
    (h : reason ∉ analysisReasons) :
    (p.run o c loading).diagnostics.count reason = (Tally.empty.merge "ast_" loading.toList).count reason := by
  rw [← perform_steps]
  exact Run.count_perform_of_notMem (recognized_allSteps (fun n _ => recognized_executionSteps n) _) h o _

end TaintFlow
