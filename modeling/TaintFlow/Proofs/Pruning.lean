/-
  TaintFlow.Proofs.Pruning
  ────────────────────────
  **The strategy `first` is the strategy `all` on a smaller program.**

  Under the strategy `first` one statement of a branch or a loop body counts, the first
  assignment or conditional in it.  `Node.prune` cuts every body down to that statement, and

      executing a program under `first`  =  executing the pruned program under `all`

  in everything but the counts of skipped statements and the events that report them.

    • `pruning` — the coupling: the same setting, and outputs that differ only in those counts,
    • `couples_pruneBody` — a body and what is left of it,
    • `couples_prune` — a statement and its pruned form, by induction on the statement.
-/
import TaintFlow.Analysis.Execute
import TaintFlow.Proofs.Coupling

namespace TaintFlow

/-! ## §1. Pruned programs. -/

mutual

/-- The statement with every body inside of it cut down to the statement that counts. -/
def Node.prune : Node → Node
  | .cond test body alternate => .cond test (Node.pruneBody body) (Node.pruneAlternate alternate)
  | .loop test body => .loop test (Node.pruneBody body)
  | .block children => .block (Node.pruneAll children)
  | n => n

/-- The second branch of a conditional, cut down; one that is there stays there. -/
def Node.pruneAlternate : Option (List Node) → Option (List Node)
  | none => none
  | some body => some (Node.pruneBody body)

/-- Statements in a row are all kept. -/
def Node.pruneAll : List Node → List Node
  | [] => []
  | n :: rest => n.prune :: Node.pruneAll rest

/-- Of a body only the first assignment or conditional is kept. -/
def Node.pruneBody : List Node → List Node
  | [] => []
  | n :: rest => if n.isBodyStatement then [n.prune] else Node.pruneBody rest

end

theorem Node.isBodyStatement_prune (n : Node) : n.prune.isBodyStatement = n.isBodyStatement := by
  cases n <;> rfl

theorem Node.pruneBody_cons_of_counts {n : Node} (h : n.isBodyStatement = true) (rest : List Node) :
    Node.pruneBody (n :: rest) = [n.prune] := by
  rw [Node.pruneBody, if_pos h]

theorem Node.pruneBody_cons_of_skipped {n : Node} (h : n.isBodyStatement = false) (rest : List Node) :
    Node.pruneBody (n :: rest) = Node.pruneBody rest := by
  rw [Node.pruneBody, if_neg (by simp [h])]

/-- The options with another strategy. -/
def Options.under (o : Options) (strategy : BlockStrategy) : Options := { o with blockStrategy := strategy }

/-! ## §2. Counts without some reasons. -/

namespace Assoc

variable {κ ν : Type} [DecidableEq κ]

/-- Setting a key among the pairs whose keys pass a test. -/
theorem filter_put (q : κ → Bool) (key : κ) (value : ν) (l : List (κ × ν)) :
    (put key value l).filter (fun e => q e.1)
      = if q key then put key value (l.filter fun e => q e.1) else l.filter fun e => q e.1 := by
  induction l with
  | nil => cases hq : q key <;> simp [put, hq]
  | cons e rest ih =>
    by_cases he : e.1 = key
    · subst he
      cases hq : q e.1 <;> simp [put, hq]
    · rw [put, if_neg he]
      cases hq : q e.1 with
      | true => cases hk : q key <;> simp [hq, hk, ih, put, he]
      | false => cases hk : q key <;> simp [hq, hk, ih]

theorem get?_filter {q : κ → Bool} {key : κ} (h : q key = true) (l : List (κ × ν)) :
    get? key (l.filter fun e => q e.1) = get? key l := by
  induction l with
  | nil => rfl
  | cons e rest ih =>
    by_cases he : e.1 = key
    · subst he
      simp [h, get?]
    · cases hq : q e.1 <;> simp [hq, get?, he, ih]

end Assoc

/-- The counts of the other reasons, in the same order. -/
def Tally.without (t : Tally) (reasons : List String) : Tally :=
  ⟨⟨t.counts.entries.filter fun e => e.1 ∉ reasons, t.counts.nodup.sublist (List.filter_sublist.map Prod.fst)⟩⟩

theorem Tally.without_record (t : Tally) (reasons : List String) (reason : String) :
    (t.record reason).without reasons
      = if reason ∈ reasons then t.without reasons else (t.without reasons).record reason := by
  have hput := Assoc.filter_put (fun k => decide (k ∉ reasons)) reason (t.count reason + 1) t.counts.entries
  by_cases h : reason ∈ reasons
  · rw [if_pos h]
    have hkept : (t.record reason).counts.entries.filter (fun e => e.1 ∉ reasons)
        = t.counts.entries.filter fun e => e.1 ∉ reasons := by
      refine hput.trans ?_
      simp [h]
    unfold without
    simp only [hkept]
  · rw [if_neg h]
    -- the count itself is the same with the other reasons gone
    have hcount : (t.without reasons).count reason = t.count reason := by
      have hget := Assoc.get?_filter (q := fun k => decide (k ∉ reasons)) (decide_eq_true h) t.counts.entries
      exact congrArg (·.getD 0) hget
    have hkept : (t.record reason).counts.entries.filter (fun e => e.1 ∉ reasons)
        = ((t.without reasons).record reason).counts.entries := by
      show _ = Assoc.put reason ((t.without reasons).count reason + 1) _
      rw [hcount]
      refine hput.trans ?_
      simp [h, without]
    unfold without at hkept ⊢
    simp only [hkept]

/-- Only the reasons that stay have to be recorded. -/
theorem Tally.without_foldl_record (reasons : List String) (l : List String) (t : Tally) :
    (l.foldl record t).without reasons = (l.filter (· ∉ reasons)).foldl record (t.without reasons) := by
  induction l generalizing t with
  | nil => rfl
  | cons reason rest ih =>
    rw [List.foldl_cons, ih, without_record]
    by_cases h : reason ∈ reasons
    · rw [if_pos h, List.filter_cons_of_neg (by simpa using h)]
    · rw [if_neg h, List.filter_cons_of_pos (by simpa using h), List.foldl_cons]

/-! ## §3. The coupling. -/

/-- The reasons under which statements of branches and loop bodies are counted as skipped. -/
def skipReasons : List String := [Context.branch.skipReason, Context.loop.skipReason]

/-- The outputs differ at most in the counts of skipped statements and in the events. -/
structure Output.SameUpToSkips (c d : Output) : Prop where
  violated : c.violated = d.violated
  sanitizers : c.sanitizers = d.sanitizers
  iterations : c.iterations = d.iterations
  reasons : c.reasons.filter (· ∉ skipReasons) = d.reasons.filter (· ∉ skipReasons)

/-- **Both sides have the same setting, and outputs that are the same but for skipped statements.** -/
def pruning : Coupling where
  active := Eq
  env := Eq
  output := Output.SameUpToSkips
  env_join ha hb := by rw [ha, hb]
  output_refl _ := ⟨rfl, rfl, rfl, rfl⟩
  output_append hc hd := by
    refine ⟨?_, ?_, ?_, ?_⟩
    · exact congrArg₂ (· ++ ·) hc.violated hd.violated
    · exact congrArg₂ (· ++ ·) hc.sanitizers hd.sanitizers
    · exact congrArg₂ (· + ·) hc.iterations hd.iterations
    · simp only [Output.append, List.filter_append, hc.reasons, hd.reasons]

/-- A framed effect does the same on both sides. -/
theorem Framed.couples_pruning {o : Options} {f : Run → Run} (hf : Framed o f) : pruning.Couples f f :=
  hf.couples_of_eq rfl rfl

/-- A statement that is skipped leaves no trace but its count. -/
theorem couples_skip {reason : String} (h : reason ∈ skipReasons) (detail : String) :
    pruning.Couples (fun s => s.fallback reason detail) id := by
  intro s t hst
  show pruning.Moves s t (s.fallback reason detail) t
  rw [Run.fallback_eq_emit]
  refine (Coupling.Moves.refl hst).emit_left ⟨rfl, rfl, rfl, ?_⟩
  simp [h]

/-! ## §4. Bodies. -/

section Bodies

variable {o : Options} {c : Context}

/-- After the statement that counts, all others are skipped. -/
theorem couples_rest (hc : c.skipReason ∈ skipReasons) (ns : List Node) :
    pruning.Couples (executeBody (o.under .first) c true ns) id := by
  induction ns with
  | nil =>
    rw [executeBody_nil]
    exact Coupling.Couples.idle
  | cons n rest ih =>
    have hskips : (o.under .first).executes c true n = false := by
      simp [Options.executes, Options.under]
    rw [executeBody_cons_of_skips hskips]
    exact (couples_skip hc n.kindName).andThen ih

theorem executes_first (c : Context) (n : Node) : (o.under .first).executes c false n = n.isBodyStatement := by
  simp [Options.executes, Options.under]

/-- What counts under `first` is executed under `all`, in branches and in loops. -/
theorem executes_all_of_counts {n : Node} (h : n.isBodyStatement = true) (c : Context) (started : Bool) :
    (o.under .all).executes c started n = true := by
  cases c <;> simp [Options.executes, Options.under, h]

/-- **A body under `first` and what is left of it under `all`.** -/
theorem couples_pruneBody (hc : c.skipReason ∈ skipReasons) {ns : List Node}
    (h : ∀ n ∈ ns, pruning.Couples (execute (o.under .first) n) (execute (o.under .all) n.prune)) :
    pruning.Couples (executeBody (o.under .first) c false ns)
      (executeBody (o.under .all) c false (Node.pruneBody ns)) := by
  induction ns with
  | nil =>
    rw [Node.pruneBody, executeBody_nil, executeBody_nil]
    exact Coupling.Couples.idle
  | cons n rest ih =>
    cases hn : n.isBodyStatement with
    | true =>
      have hfirst : (o.under .first).executes c false n = true := by rw [executes_first, hn]
      have hall : (o.under .all).executes c false n.prune = true := by
        refine executes_all_of_counts ?_ c false
        rw [Node.isBodyStatement_prune, hn]
      rw [Node.pruneBody_cons_of_counts hn, executeBody_cons_of_executes hfirst,
        executeBody_cons_of_executes hall, executeBody_nil]
      exact (h n List.mem_cons_self).andThen (couples_rest hc rest)
    | false =>
      have hskips : (o.under .first).executes c false n = false := by rw [executes_first, hn]
      rw [Node.pruneBody_cons_of_skipped hn, executeBody_cons_of_skips hskips]
      exact (couples_skip hc n.kindName).andThen (ih fun m hm => h m (List.mem_cons_of_mem n hm))

theorem couples_pruneAlternate {alternate : Option (List Node)}
    (h : ∀ ns ∈ alternate, ∀ n ∈ ns,
      pruning.Couples (execute (o.under .first) n) (execute (o.under .all) n.prune)) :
    pruning.Couples (executeAlternate (o.under .first) alternate)
      (executeAlternate (o.under .all) (Node.pruneAlternate alternate)) := by
  cases alternate with
  | none =>
    rw [Node.pruneAlternate, executeAlternate_none, executeAlternate_none]
    exact Coupling.Couples.idle
  | some ns =>
    rw [Node.pruneAlternate, executeAlternate_some, executeAlternate_some]
    exact couples_pruneBody (by simp [skipReasons]) (h ns rfl)

theorem couples_pruneAll {ns : List Node}
    (h : ∀ n ∈ ns, pruning.Couples (execute (o.under .first) n) (execute (o.under .all) n.prune)) :
    pruning.Couples (executeAll (o.under .first) ns) (executeAll (o.under .all) (Node.pruneAll ns)) := by
  induction ns with
  | nil =>
    rw [Node.pruneAll, executeAll_nil, executeAll_nil]
    exact Coupling.Couples.idle
  | cons n rest ih =>
    rw [Node.pruneAll, executeAll_cons, executeAll_cons]
    exact (h n List.mem_cons_self).andThen (ih fun m hm => h m (List.mem_cons_of_mem n hm))

end Bodies

/-! ## §5. Statements. -/

section Statements

variable (o : Options)

/-- Evaluation does not look at the strategy. -/
theorem evaluate_under (strategy : BlockStrategy) (n : Node) : evaluate (o.under strategy) n = evaluate o n := by
  induction n using Node.induction with
  | step n ih =>
    funext s
    cases n with
    | bin operator left right =>
      have hleft := ih left (by simp [Node.children])
      have hright := ih right (by simp [Node.children])
      simp only [evaluate, hleft, hright]
    | call name arguments =>
      cases name with
      | none => rfl
      | some function =>
        have hpass : (o.under strategy).passesThrough function = o.passesThrough function := rfl
        cases arguments with
        | nil => simp only [evaluate, evaluateFirst, hpass]
        | cons argument rest =>
          have hargument := ih argument (by simp [Node.children])
          simp only [evaluate, evaluateFirst, hpass, hargument]
    | var name => cases name <;> rfl
    | unknown | string | offsetLookup | encapsed | assign | echo | cond | loop | block => rfl

theorem echo_under (strategy : BlockStrategy) (arguments : List Node) :
    Run.echo (o.under strategy) arguments = Run.echo o arguments := by
  induction arguments with
  | nil => rfl
  | cons n rest ih =>
    funext s
    match n with
    | .offsetLookup name offset =>
      show Run.echo (o.under strategy) rest (s.echoLookup o name) = Run.echo o rest (s.echoLookup o name)
      rw [ih]
    | .unknown .. | .var _ | .string _ | .bin .. | .call .. | .encapsed _ | .assign .. | .echo _
    | .cond .. | .loop .. | .block _ => exact congrFun ih s

/-- Only statements with a body depend on the strategy. -/
theorem execute_under {n : Node} (h : n.hasBody = false) (strategy : BlockStrategy) :
    execute (o.under strategy) n = execute o n := by
  cases n with
  | assign left right => rw [execute_assign, execute_assign, evaluate_under]
  | echo arguments => rw [execute_echo, execute_echo, echo_under]
  | cond | loop | block => simp [Node.hasBody] at h
  | unknown | var | string | offsetLookup | bin | call | encapsed => rfl

theorem prune_of_hasBody {n : Node} (h : n.hasBody = false) : n.prune = n := by
  cases n with
  | cond | loop | block => simp [Node.hasBody] at h
  | unknown | var | string | offsetLookup | bin | call | encapsed | assign | echo => rfl

/-- **A statement under `first` and its pruned form under `all`.** -/
theorem couples_prune (n : Node) :
    pruning.Couples (execute (o.under .first) n) (execute (o.under .all) n.prune) := by
  induction n using Node.induction with
  | step n ih =>
    by_cases hbody : n.hasBody = false
    · rw [prune_of_hasBody hbody, execute_under o hbody, execute_under o hbody]
      exact (framed_execute o n).couples_pruning
    · cases n with
      | cond test body alternate =>
        have hthen : pruning.Couples (executeBody (o.under .first) .branch false body)
            (executeBody (o.under .all) .branch false (Node.pruneBody body)) := by
          refine couples_pruneBody (by simp [skipReasons]) fun n hn => ih n ?_
          simp [Node.children, hn]
        have helse : pruning.Couples (executeAlternate (o.under .first) alternate)
            (executeAlternate (o.under .all) (Node.pruneAlternate alternate)) := by
          refine couples_pruneAlternate fun ns hns n hn => ih n ?_
          simp [Node.children, Option.mem_def.1 hns, hn]
        rw [Node.prune, execute_cond, execute_cond]
        exact hthen.branch (o.guardOf test) helse
      | loop test body =>
        have hiteration : pruning.Couples (executeBody (o.under .first) .loop false body)
            (executeBody (o.under .all) .loop false (Node.pruneBody body)) := by
          refine couples_pruneBody (by simp [skipReasons]) fun n hn => ih n ?_
          simp [Node.children, hn]
        rw [Node.prune]
        exact hiteration.loop_of_eq rfl test test
      | block children =>
        rw [Node.prune, execute_block, execute_block]
        exact couples_pruneAll fun n hn => ih n hn
      | unknown | var | string | offsetLookup | bin | call | encapsed | assign | echo =>
        exact absurd rfl hbody

end Statements

/-! ## §6. Programs. -/

/-- The runs have the same setting, verdict and counts, up to the counts of skipped statements. -/
structure Run.SameUpToSkips (s t : Run) : Prop where
  setting : s.Agrees t
  verdict : s.verdict = t.verdict
  diagnostics : s.diagnostics.without skipReasons = t.diagnostics.without skipReasons

theorem sameUpToSkips_of_moves {s a b : Run} (h : pruning.Moves s s a b) : a.SameUpToSkips b := by
  obtain ⟨hrelates, d, d', hd, ha, hb⟩ := h
  refine ⟨⟨hrelates.active, hrelates.env, hrelates.guards.symm⟩, ?_, ?_⟩
  · rw [ha.verdict, hb.verdict]
    simp only [Run.emit, hd.violated, hd.sanitizers, hd.iterations]
  · rw [ha.diagnostics, hb.diagnostics, Tally.without_foldl_record, Tally.without_foldl_record, hd.reasons]

theorem sameUpToSkips_executeAll (o : Options) (ns : List Node) (s : Run) :
    (executeAll (o.under .first) ns s).SameUpToSkips (executeAll (o.under .all) (Node.pruneAll ns) s) := by
  have hself : pruning.Relates s s := ⟨rfl, rfl, rfl⟩
  exact sameUpToSkips_of_moves (couples_pruneAll (fun n _ => couples_prune o n) s s hself)

/-- **Executing a program under `first` is executing the pruned program under `all`**, from every state and in
every narrowing mode: with the same environment, patterns under consideration, guards and verdict, and with
the same counts but for those of skipped statements. -/
theorem first_strategy_is_all_on_pruned (o : Options) (ns : List Node) (s : Run) :
    let first := executeAll (o.under .first) ns s
    let pruned := executeAll (o.under .all) (Node.pruneAll ns) s
    first.env = pruned.env ∧ first.verdict.violatedPatterns = pruned.verdict.violatedPatterns ∧
      first.verdict.sanitizersApplied = pruned.verdict.sanitizersApplied ∧
      first.verdict.loopIterations = pruned.verdict.loopIterations ∧
      first.verdict.vulnerable = pruned.verdict.vulnerable ∧
      first.active = pruned.active ∧ first.guards = pruned.guards ∧
      first.diagnostics.without skipReasons = pruned.diagnostics.without skipReasons := by
  obtain ⟨hsetting, hverdict, hdiagnostics⟩ := sameUpToSkips_executeAll o ns s
  refine ⟨hsetting.env, ?_, ?_, ?_, ?_, hsetting.active, hsetting.guards, hdiagnostics⟩
  all_goals rw [hverdict]

end TaintFlow
