/-
  TaintFlow.Proofs.Narrowing
  ──────────────────────────
  **Which patterns are under consideration at each point of a run.**

  In scoped mode they are those of the catalog throughout.  In legacy mode each query for an
  entry point drops the patterns that do not have it, and nothing ever brings them back, not even
  the end of the branch or the round that asked.  So they are those that have all entry points
  asked for until then, and no other pattern is reported or marks data from then on.

    • `Run.active_perform_of_scoped`, `Run.active_perform_of_legacy` — the patterns that a row of
      steps leaves,
    • `Run.violated_perform`, `exists_active_of_mem_introduced` — what is reported and what comes
      up are names of patterns under consideration,
    • `narrowing_at_every_point` — the points of a whole run.
-/
import TaintFlow.Proofs.Steps

namespace TaintFlow

/-- The entry points that steps ask for. -/
def queried (l : List Step) : List String := l.flatMap Step.queried

theorem queried_cons (a : Step) (l : List Step) : queried (a :: l) = a.queried ++ queried l := List.flatMap_cons

/-! ## §1. One step. -/

namespace Step

variable {o : Options} {known : String → Prop}

theorem queried_eq_nil_or_query (a : Step) : a.queried = [] ∨ ∃ entryPoint, a = .query entryPoint := by
  cases a with
  | query entryPoint => exact .inr ⟨entryPoint, rfl⟩
  | fallback | literal | read | check | report | clean | store | enter | leave | environment | settled => exact .inl rfl

theorem active_apply_of_scoped (ho : o.narrowing = .scoped) (a : Step) (s : Run) :
    (a.apply o s).active = s.active := by
  obtain hnone | ⟨entryPoint, rfl⟩ := a.queried_eq_nil_or_query
  · exact active_apply_of_queried hnone s
  · unfold apply Run.queryEntryPoint
    rw [ho]

theorem active_apply_of_legacy (ho : o.narrowing = .legacy) (a : Step) (s : Run) :
    (a.apply o s).active = s.active.filter fun p => ∀ e ∈ a.queried, e ∈ p.entryPoints := by
  obtain hnone | ⟨entryPoint, rfl⟩ := a.queried_eq_nil_or_query
  · rw [active_apply_of_queried hnone, hnone]
    simp
  · unfold apply Run.queryEntryPoint
    rw [ho]
    simp [queried, Catalog.withEntryPoint]

/-- No step brings a pattern back. -/
theorem active_apply_subset (a : Step) (s : Run) : (a.apply o s).active ⊆ s.active := by
  match hmode : o.narrowing with
  | .scoped =>
    rw [active_apply_of_scoped hmode]
    exact List.Subset.refl _
  | .legacy =>
    rw [active_apply_of_legacy hmode]
    exact List.filter_subset_self _

/-- A step that is allowed reports nothing but a pattern under consideration. -/
theorem violated_apply {a : Step} {s : Run} (ha : a.Allowed known s.active) :
    ∃ added, (a.apply o s).verdict.violatedPatterns = s.verdict.violatedPatterns ++ added ∧
      ∀ m ∈ added, ∃ p ∈ s.active, p.name = m := by
  cases a with
  | check function p x =>
    rw [apply, Run.checkArgument]
    simp only
    split
    · exact ⟨[p.name], rfl, fun m hm => ⟨p, ha, (List.mem_singleton.1 hm).symm⟩⟩
    · exact ⟨[], (List.append_nil _).symm, by simp⟩
  | report p e => exact ⟨[p.name], rfl, fun m hm => ⟨p, ha, (List.mem_singleton.1 hm).symm⟩⟩
  | query entryPoint =>
    refine ⟨[], ?_, by simp⟩
    rw [apply, List.append_nil]
    unfold Run.queryEntryPoint
    split <;> rfl
  | literal value =>
    refine ⟨[], ?_, by simp⟩
    rw [apply, List.append_nil]
    unfold Run.literalTaint
    split <;> rfl
  | enter guard => cases guard <;> exact ⟨[], (List.append_nil _).symm, by simp⟩
  | leave guard => cases guard <;> exact ⟨[], (List.append_nil _).symm, by simp⟩
  | fallback | read | clean | store | environment | settled => exact ⟨[], (List.append_nil _).symm, by simp⟩

/-- What a step brings up are names of patterns under consideration. -/
theorem exists_active_of_mem_introduces {a : Step} {s : Run} {m : String} (h : m ∈ a.introduces o s) :
    ∃ p ∈ s.active, p.name = m := by
  cases a with
  | query entryPoint =>
    rw [introduces, OrderedSet.mem_ofList] at h
    obtain ⟨p, hp, hname⟩ := List.mem_map.1 h
    have hmatched : p ∈ Catalog.withEntryPoint entryPoint s.active := by
      unfold Run.queryEntryPoint at hp
      split at hp <;> exact hp
    exact ⟨p, List.mem_of_mem_filter hmatched, hname⟩
  | literal value =>
    rw [introduces, Run.literalTaint] at h
    split at h
    · exact List.mem_map.1 (OrderedSet.mem_ofList.1 h)
    · simp at h
  | fallback | read | check | report | clean | store | enter | leave | environment | settled => simp [introduces] at h

end Step

/-! ## §2. Steps in a row. -/

section Perform

variable {o : Options} {known : String → Prop}

theorem Run.active_perform_of_scoped (ho : o.narrowing = .scoped) (l : List Step) (s : Run) :
    (s.perform o l).active = s.active := by
  induction l generalizing s with
  | nil => rfl
  | cons a l ih => rw [Run.perform_cons, ih, Step.active_apply_of_scoped ho]

/-- **In legacy mode** the patterns that are left have all entry points that were asked for. -/
theorem Run.active_perform_of_legacy (ho : o.narrowing = .legacy) (l : List Step) (s : Run) :
    (s.perform o l).active = s.active.filter fun p => ∀ e ∈ queried l, e ∈ p.entryPoints := by
  induction l generalizing s with
  | nil => simp [queried]
  | cons a l ih =>
    -- two filters in a row are one, so nothing remains of where the queries stood
    rw [Run.perform_cons, ih, Step.active_apply_of_legacy ho, List.filter_filter]
    refine List.filter_congr fun p _ => Bool.eq_iff_iff.2 ?_
    simp only [Bool.and_eq_true, decide_eq_true_eq, queried_cons, List.forall_mem_append]
    exact and_comm

/-- **Nothing is reported** but patterns that are under consideration at the beginning. -/
theorem Run.violated_perform {l : List Step} {s : Run} (h : Run.Allows o known l s) :
    ∃ added, (s.perform o l).verdict.violatedPatterns = s.verdict.violatedPatterns ++ added ∧
      ∀ m ∈ added, ∃ p ∈ s.active, p.name = m := by
  induction l generalizing s with
  | nil => exact ⟨[], (List.append_nil _).symm, by simp⟩
  | cons a l ih =>
    obtain ⟨first, hfirst, hfrom⟩ := Step.violated_apply (o := o) h.1
    obtain ⟨rest, hrest, hlater⟩ := ih h.2
    refine ⟨first ++ rest, ?_, fun m hm => ?_⟩
    · rw [Run.perform_cons, hrest, hfirst, List.append_assoc]
    · rcases List.mem_append.1 hm with hm | hm
      · exact hfrom m hm
      -- what is under consideration later was so before
      · obtain ⟨p, hp, hname⟩ := hlater m hm
        exact ⟨p, Step.active_apply_subset a s hp, hname⟩

/-- **Nothing comes up** but names of patterns that are under consideration at the beginning. -/
theorem exists_active_of_mem_introduced {l : List Step} {s : Run} {m : String} (h : m ∈ introduced o l s) :
    ∃ p ∈ s.active, p.name = m := by
  induction l generalizing s with
  | nil => simp [introduced] at h
  | cons a l ih =>
    rcases OrderedSet.mem_union.1 h with h | h
    · exact Step.exists_active_of_mem_introduces h
    · obtain ⟨p, hp, hname⟩ := ih h
      exact ⟨p, Step.active_apply_subset a s hp, hname⟩

end Perform

/-! ## §3. Whole runs. -/

/-- **The patterns under consideration at each point of a run.**  In scoped mode they are those of the catalog; in
legacy mode they are, in the order of the catalog, those that have every entry point asked for so far, in whichever
branch or round that was.  From the point on only they are reported as violated, and only their names come up by
reading entry points and by guarded literals; the variables end up with no marks but those that came up before the
point or after it. -/
theorem narrowing_at_every_point (o : Options) (c : Catalog) (loading : Tally) (p : Program) (k : Nat) :
    let before := (p.steps o c loading).take k
    let after := (p.steps o c loading).drop k
    let s := (Run.initial c loading).perform o before
    s.perform o after = p.run o c loading ∧
    (o.narrowing = .scoped → s.active = c.patterns) ∧
    (o.narrowing = .legacy → s.active = c.patterns.filter fun q => ∀ e ∈ queried before, e ∈ q.entryPoints) ∧
    (∃ added, (p.run o c loading).verdict.violatedPatterns = s.verdict.violatedPatterns ++ added ∧
      ∀ m ∈ added, ∃ q ∈ s.active, q.name = m) ∧
    (∀ m ∈ introduced o after s, ∃ q ∈ s.active, q.name = m) ∧
    ∀ x, ∀ m ∈ (p.run o c loading).env.taintOf x,
      m ∈ introduced o before (Run.initial c loading) ∨ m ∈ introduced o after s := by
  intro before after s
  have hsplit : before ++ after = p.steps o c loading := List.take_append_drop k _
  have hend : s.perform o after = p.run o c loading := by
    rw [← perform_steps, ← hsplit, Run.perform_append]
  -- what holds of the whole row of steps holds of its two parts
  have hallows := allows_steps o c loading p
  have hmarks := within_run o c loading p
  rw [← hsplit] at hallows hmarks
  have hlater := (Run.allows_append.1 hallows).2
  refine ⟨hend, fun ho => ?_, fun ho => ?_, ?_, fun m hm => exists_active_of_mem_introduced hm, fun x m hm => ?_⟩
  · exact Run.active_perform_of_scoped ho before (Run.initial c loading)
  · exact Run.active_perform_of_legacy ho before (Run.initial c loading)
  · rw [← hend]
    exact Run.violated_perform hlater
  · exact mem_introduced_append.1 (hmarks x m hm)

/-- Entry points that are asked for in one branch of a conditional, in each round of a loop and by printing, and a
literal in the other branch that equals its guard. -/
def scatteredReads : Program where
  children :=
    [.cond (.bin "==" (.var (some "mode")) (.string "raw"))
      [.assign (.var (some "a")) (.offsetLookup (some "_GET") none)]
      (some [.assign (.var (some "b")) (.string "raw")]),
     .loop (.var (some "more"))
      [.assign (.var (some "c")) (.bin "." (.var (some "a")) (.offsetLookup (some "_POST") none))],
     .echo [.offsetLookup (some "_GET") none]]

theorem scatteredReads_narrowing :
    let o : Options := { narrowing := .legacy }
    let c : Catalog := ⟨[.build "SQL" ["$_GET", "$_POST"] [] ["query"], .build "XML" ["$_COOKIE"] [] ["echo"],
      .build "XSS" ["$_GET", "$_POST"] [] ["echo"], .build "DIR" ["$_GET"] [] ["echo"]]⟩
    let steps := scatteredReads.steps o c ∅
    -- in the second branch, before the literal is compared with its guard
    let s := (Run.initial c ∅).perform o (steps.take 4)
    o.narrowing = .legacy ∧
      s.active = (c.patterns.filter fun q => ∀ e ∈ queried (steps.take 4), e ∈ q.entryPoints) ∧
      queried (steps.take 4) = ["$_GET"] ∧ s.active.map (·.name) = ["SQL", "XSS", "DIR"] ∧
      (∀ m ∈ introduced o (steps.drop 4) s, ∃ q ∈ s.active, q.name = m) ∧
      introduced o (steps.drop 4) s = .ofList ["SQL", "XSS", "DIR"] ∧
      queried steps = ["$_GET", "$_POST", "$_POST", "$_GET"] ∧
      (scatteredReads.run o c ∅).active.map (·.name) = ["SQL", "XSS"] ∧
      (scatteredReads.run o c ∅).verdict.violatedPatterns = ["XSS"] := by
  intro o c steps s
  obtain ⟨_, _, hactive, _, hintroduced, _⟩ := narrowing_at_every_point o c ∅ scatteredReads 4
  exact ⟨rfl, hactive rfl, by decide +kernel, by decide +kernel, hintroduced, by decide +kernel, by decide +kernel,
    by decide +kernel, by decide +kernel⟩

end TaintFlow
