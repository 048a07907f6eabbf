/-
  TaintFlow.Proofs.Coupling
  ─────────────────────────
  **Two executions side by side.**

  Several laws compare two executions: of one statement from two states, under two catalogs, or
  of a statement and a simpler one.  A `Coupling` says what the two keep in common: a relation
  between the patterns, one between the environments, and one between what each side adds to
  its output.  The guards are the same on both sides.

    • `Run.Adds` — what a later run has added to the output of an earlier one,
    • `Coupling.Moves` — a related pair of runs goes on to a related pair, and the outputs that
      are added on the way are related too,
    • `Coupling.Couples` — two effects take every related pair along; closed under sequences,
      conditionals (`Couples.branch`) and repetition (`Couples.iterate`),
    • `Couples.loop` — and under loops, as long as an iteration adds to the weight on one side
      exactly if it does on the other, as between equal environments (`Couples.loop_of_eq`),
    • `Couples.statement` — so all statements are coupled with themselves if the simple ones are.
-/
import TaintFlow.Proofs.Termination

namespace TaintFlow

/-! ## §1. Added output. -/

/-- The verdict, the counts and the events of a run. -/
def Run.record (s : Run) : Verdict × Tally × List Event := (s.verdict, s.diagnostics, s.events)

/-- The second run has the record of the first with more output. -/
def Run.Adds (s : Run) (d : Output) (t : Run) : Prop := t.record = (s.emit d).record

namespace Run

theorem record_enter (s : Run) (guard : Option String) : (s.enter guard).record = s.record := by
  cases guard <;> rfl

theorem record_leave (s : Run) (guard : Option String) : (s.leave guard).record = s.record := by
  cases guard <;> rfl

/-- The setting has no part in the record. -/
theorem record_emit_of_record {s t : Run} (h : t.record = s.record) (d : Output) :
    (t.emit d).record = (s.emit d).record := by
  obtain ⟨hverdict, hrest⟩ := Prod.mk.inj h
  obtain ⟨hdiagnostics, hevents⟩ := Prod.mk.inj hrest
  unfold record emit
  rw [hverdict, hdiagnostics, hevents]

theorem Adds.verdict {s t : Run} {d : Output} (h : s.Adds d t) : t.verdict = (s.emit d).verdict :=
  (Prod.mk.inj h).1

theorem Adds.diagnostics {s t : Run} {d : Output} (h : s.Adds d t) :
    t.diagnostics = d.reasons.foldl Tally.record s.diagnostics :=
  (Prod.mk.inj (Prod.mk.inj h).2).1

theorem Adds.nothing (s : Run) : s.Adds {} s := by
  unfold Adds
  rw [emit_nothing]

theorem Adds.emit {s t : Run} {c : Output} (h : s.Adds c t) (d : Output) : s.Adds (c.append d) (t.emit d) := by
  have hemit : (t.emit d).record = ((s.emit c).emit d).record := record_emit_of_record h d
  have happend := emit_adopt_emit s s s c d
  rw [(Agrees.refl s).adopt_eq] at happend
  have hself : (s.emit c).adopt s = s.emit c := rfl
  rw [hself] at happend
  unfold Adds
  rw [hemit, happend]

/-- One addition after the other. -/
theorem Adds.trans {s t u : Run} {c d : Output} (hst : s.Adds c t) (htu : t.Adds d u) : s.Adds (c.append d) u := by
  have hemit : (t.emit d).record = (s.emit (c.append d)).record := hst.emit d
  unfold Adds at htu ⊢
  rw [htu, hemit]

/-- Only the records count. -/
theorem Adds.of_record {s t s' t' : Run} {d : Output} (h : s.Adds d t) (hs : s'.record = s.record)
    (ht : t'.record = t.record) : s'.Adds d t' := by
  unfold Adds at h ⊢
  rw [ht, h, record_emit_of_record hs]

end Run

/-- A framed effect adds the same output to all runs with one setting. -/
theorem Framed.adds {o : Options} {f : Run → Run} (hf : Framed o f) (s : Run) :
    ∃ d : Output, ∀ t : Run, t.Agrees s → t.Adds d (f t) := by
  obtain ⟨d, hd⟩ := hf.output s
  refine ⟨d, fun t ht => ?_⟩
  have hrecord : (t.adopt (f s)).record = t.record := rfl
  unfold Run.Adds
  rw [hd t ht, Run.record_emit_of_record hrecord]

/-- An analysis adds the same output whatever was counted in the loading of its tree. -/
theorem Program.adds_run (o : Options) (c : Catalog) (p : Program) :
    ∃ d : Output, ∀ loading : Tally,
      Run.Adds { Run.start c with diagnostics := Tally.empty.merge "ast_" loading.toList } d (p.run o c loading) := by
  have hframed : Framed o (executeAll o p.children) := (Framed.sequential o).all fun n _ => framed_execute o n
  obtain ⟨d, hd⟩ := hframed.adds (Run.start c)
  exact ⟨d, fun loading => hd _ ⟨rfl, rfl, rfl⟩⟩

/-! ## §2. Couplings. -/

/-- **What two executions keep in common**: relations between the patterns under consideration, the
environments and the added outputs. -/
structure Coupling where
  active : List Pattern → List Pattern → Prop
  env : Env String → Env String → Prop
  output : Output → Output → Prop
  env_join {a a' b b' : Env String} : env a a' → env b b' → env (a.join b) (a'.join b')
  output_refl (d : Output) : output d d
  output_append {c c' d d' : Output} : output c c' → output d d' → output (c.append d) (c'.append d')

namespace Coupling

/-- The runs have related settings. -/
structure Relates (K : Coupling) (s t : Run) : Prop where
  active : K.active s.active t.active
  env : K.env s.env t.env
  guards : t.guards = s.guards

/-- The runs `s` and `t` go on to `s'` and `t'`: these are related, and so is what has been added. -/
structure Moves (K : Coupling) (s t s' t' : Run) : Prop where
  relates : K.Relates s' t'
  output : ∃ d d', K.output d d' ∧ s.Adds d s' ∧ t.Adds d' t'

/-- The effects take related runs along. -/
def Couples (K : Coupling) (f g : Run → Run) : Prop := ∀ s t : Run, K.Relates s t → K.Moves s t (f s) (g t)

variable {K : Coupling} {s t s' t' s'' t'' : Run}

namespace Relates

theorem withEnv (h : K.Relates s t) {e e' : Env String} (he : K.env e e') :
    K.Relates (s.withEnv e) (t.withEnv e') :=
  ⟨h.active, he, h.guards⟩

theorem emit (h : K.Relates s t) (d d' : Output) : K.Relates (s.emit d) (t.emit d') :=
  ⟨h.active, h.env, h.guards⟩

theorem enter (h : K.Relates s t) (guard : Option String) : K.Relates (s.enter guard) (t.enter guard) := by
  cases guard with
  | none => exact h
  | some literal => exact ⟨h.active, h.env, congrArg (literal :: ·) h.guards⟩

theorem leave (h : K.Relates s t) (guard : Option String) : K.Relates (s.leave guard) (t.leave guard) := by
  cases guard with
  | none => exact h
  | some literal => exact ⟨h.active, h.env, congrArg List.tail h.guards⟩

end Relates

namespace Moves

theorem refl (h : K.Relates s t) : K.Moves s t s t :=
  ⟨h, {}, {}, K.output_refl {}, Run.Adds.nothing s, Run.Adds.nothing t⟩

theorem trans (h : K.Moves s t s' t') (h' : K.Moves s' t' s'' t'') : K.Moves s t s'' t'' := by
  obtain ⟨-, c, c', hc, hs, ht⟩ := h
  obtain ⟨hrelates, d, d', hd, hs', ht'⟩ := h'
  exact ⟨hrelates, c.append d, c'.append d', K.output_append hc hd, hs.trans hs', ht.trans ht'⟩

/-- Each side adds output of its own. -/
theorem emit (h : K.Moves s t s' t') {d d' : Output} (hd : K.output d d') :
    K.Moves s t (s'.emit d) (t'.emit d') := by
  obtain ⟨hrelates, c, c', hc, hs, ht⟩ := h
  exact ⟨hrelates.emit d d', c.append d, c'.append d', K.output_append hc hd, hs.emit d, ht.emit d'⟩

/-- Only the left side adds output. -/
theorem emit_left (h : K.Moves s t s' t') {d : Output} (hd : K.output d {}) : K.Moves s t (s'.emit d) t' := by
  have hmoves := h.emit hd
  rwa [Run.emit_nothing] at hmoves

theorem withEnv (h : K.Moves s t s' t') {e e' : Env String} (he : K.env e e') :
    K.Moves s t (s'.withEnv e) (t'.withEnv e') := by
  obtain ⟨hrelates, d, d', hd, hs, ht⟩ := h
  exact ⟨hrelates.withEnv he, d, d', hd, hs.of_record rfl rfl, ht.of_record rfl rfl⟩

end Moves

namespace Couples

variable {f g f' g' : Run → Run}

theorem idle : K.Couples id id := fun _ _ h => Moves.refl h

theorem andThen (h : K.Couples f g) (h' : K.Couples f' g') : K.Couples (f' ∘ f) (g' ∘ g) := by
  intro s t hst
  have hfirst := h s t hst
  exact hfirst.trans (h' (f s) (g t) hfirst.relates)

theorem emit {d d' : Output} (h : K.output d d') : K.Couples (fun s => s.emit d) fun s => s.emit d' := by
  intro s t hst
  exact (Moves.refl hst).emit h

theorem fallback (reason detail : String) :
    K.Couples (fun s => s.fallback reason detail) fun s => s.fallback reason detail := by
  simp only [Run.fallback_eq_emit]
  exact emit (K.output_refl _)

theorem foldl {α : Type} {f g : Run → α → Run} {l : List α}
    (h : ∀ a ∈ l, K.Couples (fun s => f s a) fun s => g s a) :
    K.Couples (fun s => l.foldl f s) fun s => l.foldl g s := by
  induction l with
  | nil => exact idle
  | cons a l ih =>
    exact andThen (h a List.mem_cons_self) (ih fun b hb => h b (List.mem_cons_of_mem a hb))

/-- The right side passes over items that leave the left side related. -/
theorem foldl_filter {α : Type} {f g : Run → α → Run} (keeps : α → Bool)
    (hkept : ∀ a, keeps a = true → K.Couples (fun s => f s a) fun s => g s a)
    (hdropped : ∀ a, keeps a = false → K.Couples (fun s => f s a) id) (l : List α) :
    K.Couples (fun s => l.foldl f s) fun s => (l.filter keeps).foldl g s := by
  induction l with
  | nil => exact idle
  | cons a l ih =>
    cases ha : keeps a with
    | true =>
      rw [List.filter_cons_of_pos ha]
      exact andThen (hkept a ha) ih
    | false =>
      rw [List.filter_cons_of_neg (by simp [ha])]
      exact andThen (hdropped a ha) ih

/-- Passes from statements to bodies. -/
theorem sequential (K : Coupling) : Sequential fun f => K.Couples f f where
  idle := idle
  andThen := andThen
  fallback := fallback

/-- Passes from statements that correspond one by one to bodies. -/
theorem sequentialPair (K : Coupling) : SequentialPair K.Couples where
  idle := idle
  andThen := andThen
  fallback := fallback

/-- **Conditionals**: both sides start their branches from related runs, and the joins are related. -/
theorem branch (guard : Option String) (hfirst : K.Couples f g) (hsecond : K.Couples f' g') :
    K.Couples (branch guard f f') (branch guard g g') := by
  intro s t hst
  have hthen := hfirst _ _ (hst.enter guard)
  -- the second branches start from the environments before the conditional
  have hreset := hthen.withEnv hst.env
  have helse := hreset.trans (hsecond _ _ hreset.relates)
  have hjoin := K.env_join hthen.relates.env helse.relates.env
  obtain ⟨d, d', hd, hs, ht⟩ := helse.output
  refine ⟨(helse.relates.leave guard).withEnv hjoin, d, d', hd, ?_, ?_⟩
  · exact hs.of_record (Run.record_enter s guard).symm (Run.record_leave _ guard)
  · exact ht.of_record (Run.record_enter t guard).symm (Run.record_leave _ guard)

theorem iterate (h : K.Couples f g) (k : Nat) : K.Couples f^[k] g^[k] := by
  induction k with
  | zero => exact idle
  | succ k ih => exact andThen h ih

/-! ## §3. Loops. -/

variable {o o' : Options} {body body' : List Node}

/-- If an iteration adds to the weight on one side exactly if it does on the other, the loops
stop at the same time. -/
theorem stops_eq (h : K.Couples (executeBody o .loop false body) (executeBody o' .loop false body'))
    (hgrows : ∀ s t : Run, K.Relates s t →
      ((executeBody o .loop false body s).env.weight ≤ s.env.weight ↔
        (executeBody o' .loop false body' t).env.weight ≤ t.env.weight))
    {s t : Run} (hst : K.Relates s t) : stops o body s = stops o' body' t := by
  ext k
  show 1 ≤ k ∧ _ ↔ 1 ≤ k ∧ _
  refine and_congr_right fun hk => ?_
  obtain ⟨j, rfl⟩ : ∃ j, k = j + 1 := ⟨k - 1, by omega⟩
  -- the states before the last iteration are related, so it adds on both sides or on none
  have hbefore := (iterate h j s t hst).relates
  rw [Nat.add_sub_cancel, iterated_succ, iterated_succ]
  exact hgrows _ _ hbefore

/-- **Loops** that stop at the same time. -/
theorem loop (h : K.Couples (executeBody o .loop false body) (executeBody o' .loop false body'))
    (hgrows : ∀ s t : Run, K.Relates s t →
      ((executeBody o .loop false body s).env.weight ≤ s.env.weight ↔
        (executeBody o' .loop false body' t).env.weight ≤ t.env.weight))
    (test test' : Node) : K.Couples (execute o (.loop test body)) (execute o' (.loop test' body')) := by
  intro s t hst
  obtain ⟨k, hk⟩ : ∃ k, IsLeast (stops o body s) k := ⟨_, settle_isLeast o body s⟩
  have hk' : IsLeast (stops o' body' t) k := by
    rw [← stops_eq h hgrows hst]
    exact hk
  rw [execute_loop_of_isLeast o body s test hk, execute_loop_of_isLeast o' body' t test' hk',
    Run.finishLoop_eq_emit, Run.finishLoop_eq_emit]
  have hmoves : K.Moves s t (iterated o body k s) (iterated o' body' k t) := iterate h k s t hst
  exact hmoves.emit (K.output_refl _)

/-- **Loops** in a coupling of equal environments. -/
theorem loop_of_eq (henv : K.env = Eq)
    (h : K.Couples (executeBody o .loop false body) (executeBody o' .loop false body')) (test test' : Node) :
    K.Couples (execute o (.loop test body)) (execute o' (.loop test' body')) := by
  have hsame : ∀ {s t : Run}, K.Relates s t → s.env = t.env := by
    intro s t hst
    have hst' := hst.env
    rwa [henv] at hst'
  refine h.loop (fun s t hst => ?_) test test'
  rw [hsame hst, hsame (h s t hst).relates]

/-! ## §4. Statements. -/

/-- **A statement and itself**, if assignments and printing are coupled with themselves and related runs have
environments of one weight. -/
theorem statement (hassign : ∀ left right, K.Couples (execute o (.assign left right)) (execute o (.assign left right)))
    (hecho : ∀ arguments, K.Couples (Run.echo o arguments) (Run.echo o arguments))
    (hweight : ∀ s t : Run, K.Relates s t → s.env.weight = t.env.weight) (n : Node) :
    K.Couples (execute o n) (execute o n) := by
  induction n using statement_induction o with
  | assign left right => exact hassign left right
  | echo arguments => exact hecho arguments
  | cond test body alternate hbody halternate =>
    rw [execute_cond]
    exact ((sequential K).body hbody false).branch _ ((sequential K).alternate halternate)
  | loop test body hbody =>
    have hiteration : K.Couples (executeBody o .loop false body) (executeBody o .loop false body) :=
      (sequential K).body hbody false
    refine hiteration.loop (fun s t hst => ?_) test test
    rw [hweight s t hst, hweight _ _ (hiteration s t hst).relates]
  | block children hchildren =>
    rw [execute_block]
    exact (sequential K).all hchildren
  | inert n reason detail h =>
    rw [funext h]
    exact fallback reason detail

end Couples

end Coupling

/-- A framed effect does the same on both sides of a coupling of equal settings. -/
theorem Framed.couples_of_eq {K : Coupling} {o : Options} {f : Run → Run} (hf : Framed o f) (hactive : K.active = Eq)
    (henv : K.env = Eq) : K.Couples f f := by
  intro s t hst
  obtain ⟨hactive', henv', hguards⟩ := hst
  rw [hactive] at hactive'
  rw [henv] at henv'
  have hagrees : t.Agrees s := ⟨hactive'.symm, henv'.symm, hguards⟩
  have hafter := hf.agrees hagrees
  obtain ⟨d, hd⟩ := hf.adds s
  refine ⟨⟨?_, ?_, hafter.guards⟩, d, d, K.output_refl d, hd s (Run.Agrees.refl s), hd t hagrees⟩
  · rw [hactive]
    exact hafter.active.symm
  · rw [henv]
    exact hafter.env.symm

end TaintFlow
