/-
  TaintFlow.Proofs.Invariants
  ───────────────────────────
  **What every execution keeps, and what it only adds to.**

  A run is sound if it counts as vulnerable exactly when it lists a violation, and if all
  patterns under consideration are in the catalog.  Whatever is executed or evaluated from a
  sound run leads to a sound run that continues it:

    • `Run.Continues` — lists of the verdict are only extended, counts only grow, no variable is
      forgotten, all guards are left again, and every mark is the name of a pattern of the
      catalog or was on some variable before,
    • `continues_of_framed` — so does every framed effect that stays within the bounds of the
      catalog and the old marks (`catalogBounds`),
    • `run_invariants_kept` — statements, rows of statements, bodies and expressions.

  These are laws of whole executions.  Inside of one, a guard is on the stack for a while, and
  the second branch of a conditional starts without the variables of the first.
-/
import TaintFlow.Proofs.Coupling

namespace TaintFlow

/-! ## §1. Sound runs and what continues them. -/

/-- The run is vulnerable exactly if it lists a violation, and its patterns are in the catalog. -/
structure Run.Sound (c : Catalog) (s : Run) : Prop where
  vulnerable : s.verdict.vulnerable = true ↔ s.verdict.violatedPatterns ≠ []
  active : s.active ⊆ c.patterns

/-- The mark is the name of a pattern of the catalog, or some variable carries it. -/
def Run.Knows (c : Catalog) (s : Run) (m : String) : Prop := m ∈ c.names ∨ ∃ x, m ∈ s.env.taintOf x

/-- **The second run is sound and continues the first.** -/
structure Run.Continues (c : Catalog) (s t : Run) : Prop where
  sound : t.Sound c
  violated : s.verdict.violatedPatterns <+: t.verdict.violatedPatterns
  sanitizers : s.verdict.sanitizersApplied <+: t.verdict.sanitizersApplied
  iterations : s.verdict.loopIterations ≤ t.verdict.loopIterations
  counts : ∀ reason, s.diagnostics.count reason ≤ t.diagnostics.count reason
  names : s.env.names ⊆ t.env.names
  guards : t.guards = s.guards
  marks : ∀ x, ∀ m ∈ t.env.taintOf x, s.Knows c m

/-! ## §2. The marks of the catalog. -/

/-- Only patterns of the catalog, and only marks that the run knows. -/
def catalogBounds (c : Catalog) (s : Run) : Bounds where
  patterns := c.patterns
  guards := s.guards
  name _ := True
  mark := s.Knows c
  report _ := True

theorem permits_catalogBounds (o : Options) (c : Catalog) (s : Run) (n : Node) :
    (catalogBounds c s).Permits o n := by
  refine Bounds.Permits.of_marks (fun _ _ => trivial) (fun p hp => ?_) fun _ _ => trivial
  exact .inl (List.mem_map_of_mem hp)

theorem Run.Sound.holds {c : Catalog} {s : Run} (hs : s.Sound c) : (catalogBounds c s).Holds s where
  patterns := hs.active
  guards := rfl
  names _ _ := trivial
  marks x _ hm := .inr ⟨x, hm⟩
  reports _ _ := trivial

/-! ## §3. Executions. -/

/-- A run with more output is vulnerable exactly if it lists a violation, if that was so before. -/
theorem vulnerable_emit_iff {s : Run} (h : s.verdict.vulnerable = true ↔ s.verdict.violatedPatterns ≠ [])
    (d : Output) : (s.emit d).verdict.vulnerable = true ↔ (s.emit d).verdict.violatedPatterns ≠ [] := by
  show (s.verdict.vulnerable || !d.violated.isEmpty) = true ↔ s.verdict.violatedPatterns ++ d.violated ≠ []
  rw [Bool.or_eq_true, h, ne_eq, ne_eq, List.append_eq_nil_iff, not_and_or]
  simp

/-- **A framed effect that stays within the bounds of the catalog continues the run.** -/
theorem continues_of_framed {o : Options} {c : Catalog} {f : Run → Run} (hf : Framed o f) {s : Run}
    (hs : s.Sound c) (hwithin : (catalogBounds c s).Holds (f s)) : s.Continues c (f s) := by
  obtain ⟨d, hd⟩ := hf.adds s
  have hadds : s.Adds d (f s) := hd s (Run.Agrees.refl s)
  have hleads := hf.leads s
  refine ⟨⟨?_, hwithin.patterns⟩, ?_, ?_, ?_, fun reason => ?_, hleads.names.subset, hleads.guards, hwithin.marks⟩
  · rw [hadds.verdict]
    exact vulnerable_emit_iff hs.vulnerable d
  · rw [hadds.verdict]
    exact List.prefix_append _ _
  · rw [hadds.verdict]
    exact List.prefix_append _ _
  · rw [hadds.verdict]
    exact Nat.le_add_right _ _
  · rw [hadds.diagnostics, Tally.count_foldl_record]
    omega

/-- **Every execution and evaluation keeps the invariants of a run**, under any options: what is executed
from a sound run continues it, and an expression has no marks but those of the catalog and of variables. -/
theorem run_invariants_kept (o : Options) (c : Catalog) (s : Run) (hs : s.Sound c) :
    (∀ n, s.Continues c (execute o n s)) ∧
    (∀ ns, s.Continues c (executeAll o ns s)) ∧
    (∀ context ns, s.Continues c (executeBody o context false ns s)) ∧
    ∀ n, s.Continues c (evaluate o n s).2 ∧ ∀ m ∈ (evaluate o n s).1, s.Knows c m := by
  have hexecute : ∀ (n : Node) {t : Run}, (catalogBounds c s).Holds t → (catalogBounds c s).Holds (execute o n t) :=
    fun n _ ht => Bounds.execute (permits_catalogBounds o c s n) ht
  -- the bounds are those of the first state, whatever has been executed since
  have hwithin := Bounds.sequential (catalogBounds c s)
  refine ⟨fun n => ?_, fun ns => ?_, fun context ns => ?_, fun n => ?_⟩
  · exact continues_of_framed (framed_execute o n) hs (hexecute n hs.holds)
  · exact continues_of_framed ((Framed.sequential o).all fun n _ => framed_execute o n) hs
      (hwithin.all (fun n _ => hexecute n) hs.holds)
  · exact continues_of_framed (framed_executeBody o context false ns) hs
      (hwithin.body (fun n _ => hexecute n) false hs.holds)
  · obtain ⟨hholds, hmarks⟩ := Bounds.evaluate (permits_catalogBounds o c s n) hs.holds
    have hframed : Framed o fun s => (evaluate o n s).2 := FramedStep.bind (framed_evaluate o n) fun _ => Framed.idle
    exact ⟨continues_of_framed hframed hs hholds, hmarks⟩

/-- A run in the middle of a guarded branch, with a violation and with a mark of no pattern. -/
def midwayRun (c : Catalog) : Run where
  active := c.patterns
  env := .ofList [("old", .ofList ["foreign"])]
  guards := ["raw"]
  verdict := { vulnerable := true, violatedPatterns := ["XSS"], loopIterations := 2 }
  diagnostics := Tally.empty.record "unknown_statement"

/-- A loop that copies the old mark in one branch, reads input in the other and queries with both. -/
def copyingLoop : Node :=
  .loop (.var (some "more"))
    [.cond (.bin "==" (.var (some "mode")) (.string "raw"))
      [.assign (.var (some "q")) (.bin "." (.var (some "q")) (.var (some "old")))]
      (some [.assign (.var (some "q")) (.offsetLookup (some "_GET") none), .echo []]),
     .assign (.var (some "r")) (.call (some "query") [.var (some "q")])]

theorem copyingLoop_continues_midwayRun :
    let o : Options := { blockStrategy := .all, narrowing := .legacy }
    let c : Catalog := ⟨[.build "SQL" ["$_GET"] ["escape"] ["query"], .build "XSS" ["$_POST"] [] ["echo"]]⟩
    (midwayRun c).Sound c ∧ (midwayRun c).Continues c (execute o copyingLoop (midwayRun c)) ∧
      (execute o copyingLoop (midwayRun c)).verdict.violatedPatterns = ["XSS", "SQL", "SQL"] ∧
      (execute o copyingLoop (midwayRun c)).env.taintOf "q" = .ofList ["SQL", "foreign"] := by
  intro o c
  have hsound : (midwayRun c).Sound c := ⟨by decide +kernel, fun p hp => hp⟩
  have hcontinues := (run_invariants_kept o c (midwayRun c) hsound).1 copyingLoop
  exact ⟨hsound, hcontinues, by decide +kernel, by decide +kernel⟩

end TaintFlow
