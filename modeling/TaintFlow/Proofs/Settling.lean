/-
  TaintFlow.Proofs.Settling
  ─────────────────────────
  **When a loop ends at a fixed point.**

  A loop ends with the first iteration that adds nothing to the weight.  The weight counts pairs
  of a variable and a mark, and so it does not see a mark that moves: one variable may lose it
  while another one gets it.

    • `settled_of_below` — an iteration that takes no mark away and adds nothing to the weight
      has changed no mark, and then the next one finds all that it reads as it was before,
    • `copyChain` — so a loop whose last iteration takes no mark away ends at a fixed point, also
      if it overwrites its variables: once more through the body changes nothing,
    • `movingMark` — a loop whose first iteration moves a mark ends right there, although the
      next iteration would go on to taint another variable.
-/
import TaintFlow.Proofs.View

namespace TaintFlow

section Loop

variable {o : Options} {body : List Node}

/-- **An iteration without effect on marks is followed by one without any effect.** -/
theorem settled_of_below {s : Run} (hbelow : s.env.Below (executeBody o .loop false body s).env)
    (hweight : (executeBody o .loop false body s).env.weight ≤ s.env.weight)
    (hactive : (executeBody o .loop false body s).active = s.active) :
    (executeBody o .loop false body (executeBody o .loop false body s)).env
      = (executeBody o .loop false body s).env := by
  have hframed := framed_executeBody o .loop false body
  generalize hf : executeBody o .loop false body = f at hbelow hweight hactive hframed ⊢
  -- the weight has no room for another mark
  have hsame : ∀ x, s.env.taintOf x = (f s).env.taintOf x := Env.taintOf_eq_of_weight_le hbelow hweight
  let V := View.all fun x => x ∈ (f s).env.names
  have hV : V.Complete := View.complete_all _
  have hrelates : V.coupling.Relates s (f s) := by
    refine ⟨?_, ⟨fun x _ => ?_, fun _ x _ => ?_⟩, (hframed.leads s).guards⟩
    · show (f s).active = s.active.map _
      rw [map_restrict_of_keeps_all hV, hactive]
    · rw [hsame x]
      exact View.Same.refl V _
    · show x ∈ (f s).env.names ↔ x ∈ s.env.names ∨ x ∈ (f s).env.names
      rw [or_iff_right_of_imp fun hx => (hframed.leads s).names.subset hx]
  have hcouples : V.coupling.Couples f f := by
    rw [← hf]
    exact View.couples_executeBody hV (fun _ _ => trivial) .loop false
  have henv : V.SameEnv (f s).env (f (f s)).env := (hcouples s (f s) hrelates).relates.env
  refine Env.ext_of_views ?_ fun x => ((henv.taints x trivial).eq_of_complete hV).symm
  -- no new variable is registered either, and the old ones keep their order
  have hsubset : (f (f s)).env.names ⊆ (f s).env.names := by
    intro x hx
    exact ((henv.names hV x trivial).1 hx).elim id id
  have hlength := (List.subperm_of_subset (Env.nodup_names _) hsubset).length_le
  exact ((hframed.leads (f s)).names.eq_of_length_le hlength).symm

/-- **A loop whose last iteration takes no mark away ends at a fixed point**, if that iteration has
left the patterns under consideration alone too. -/
theorem loop_settles_of_keeping (test : Node) {s : Run} {k : Nat} (hk : IsLeast (stops o body s) k)
    (hkeeps : (iterated o body (k - 1) s).env.Below (iterated o body k s).env)
    (hactive : (iterated o body k s).active = (iterated o body (k - 1) s).active) :
    (executeBody o .loop false body (execute o (.loop test body) s)).env = (execute o (.loop test body) s).env := by
  obtain ⟨hone, hweight⟩ := hk.1
  obtain ⟨j, rfl⟩ : ∃ j, k = j + 1 := ⟨k - 1, by omega⟩
  rw [Nat.add_sub_cancel] at hkeeps hactive hweight
  have hfixed : (executeBody o .loop false body (iterated o body (j + 1) s)).env = (iterated o body (j + 1) s).env := by
    rw [iterated_succ] at hkeeps hactive hweight ⊢
    exact settled_of_below hkeeps hweight hactive
  -- at its end, a loop only adds to the output
  have hagrees : (execute o (.loop test body) s).Agrees (iterated o body (j + 1) s) := by
    rw [execute_loop_of_isLeast o body s test hk, Run.finishLoop_eq_emit]
    exact ⟨rfl, rfl, rfl⟩
  rw [((framed_executeBody o .loop false body).agrees hagrees).env, hagrees.env, hfixed]

end Loop

/-- Copies along which input wanders from variable to variable, one iteration each. -/
def copyChain : List Node :=
  [.assign (.var (some "c")) (.var (some "b")), .assign (.var (some "b")) (.var (some "a")),
   .assign (.var (some "a")) (.offsetLookup (some "_GET") none)]

theorem copyChain_settles :
    let o : Options := { blockStrategy := .all }
    let s := Run.start ⟨[.build "SQL" ["$_GET"] ["escape"] ["query"]]⟩
    IsLeast (stops o copyChain s) 4 ∧ (iterated o copyChain 3 s).env.Below (iterated o copyChain 4 s).env ∧
      (iterated o copyChain 4 s).active = (iterated o copyChain 3 s).active ∧
      (executeBody o .loop false copyChain (execute o (.loop (.var (some "i")) copyChain) s)).env
        = (execute o (.loop (.var (some "i")) copyChain) s).env := by
  intro o s
  -- the first three iterations each carry the mark to one more variable
  have hgrows : ∀ i ∈ [1, 2, 3], ¬ (iterated o copyChain i s).env.weight ≤ (iterated o copyChain (i - 1) s).env.weight := by
    decide +kernel
  have hfixed : (iterated o copyChain 3 s).env = (iterated o copyChain 4 s).env := by decide +kernel
  have hleast : IsLeast (stops o copyChain s) 4 := by
    refine ⟨⟨by omega, ?_⟩, ?_⟩
    · rw [show 4 - 1 = 3 from rfl, hfixed]
    · rintro j ⟨hone, hstop⟩
      by_contra hj
      exact hgrows j (by simp; omega) hstop
  have hbelow : (iterated o copyChain 3 s).env.Below (iterated o copyChain 4 s).env := by
    rw [hfixed]
    exact Env.Below.refl _
  have hactive : (iterated o copyChain 4 s).active = (iterated o copyChain 3 s).active := by
    rw [iterated_succ]
    exact ((framed_executeBody o .loop false copyChain).leads _).fixed rfl
  exact ⟨hleast, hbelow, hactive, loop_settles_of_keeping _ hleast hbelow hactive⟩

/-- The same copies of a variable that is tainted from the start; so is the last one. -/
def movingMark : List Node :=
  [.assign (.var (some "c")) (.var (some "b")), .assign (.var (some "b")) (.var (some "a"))]

/-- The first iteration moves the mark of the last variable to the middle one.  The weight is what it was,
and the loop ends; once more through the body would taint the last variable again, and a query with it
would be reported. -/
theorem movingMark_not_settled :
    let o : Options := { blockStrategy := .all }
    let catalog : Catalog := ⟨[.build "SQL" ["$_GET"] ["escape"] ["query"]]⟩
    let before := (Run.start catalog).withEnv
      (.ofList [("a", .ofList ["SQL"]), ("b", ∅), ("c", .ofList ["SQL"])])
    let after := execute o (.loop (.var (some "i")) movingMark) before
    let query : Node := .assign (.var (some "r")) (.call (some "query") [.var (some "c")])
    after.verdict.loopIterations = 1 ∧ after.env.taintOf "c" = ∅ ∧
      (executeBody o .loop false movingMark after).env.taintOf "c" = .ofList ["SQL"] ∧
      (executeBody o .loop false movingMark after).env ≠ after.env ∧
      (execute o query after).verdict.violatedPatterns = [] ∧
      (execute o query (executeBody o .loop false movingMark after)).verdict.violatedPatterns = ["SQL"] := by
  decide +kernel

end TaintFlow
