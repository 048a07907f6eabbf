/-
  TaintFlow.Proofs.BranchOrder
  ────────────────────────────
  **The order of the two branches of a conditional does not matter.**

  Both branches start from the environment before the conditional, but the second one is
  executed in the state that the first one has left.  As long as reading an entry point leaves
  the patterns under consideration alone, the second branch sees nothing of the first:

    • `Node.swap` — the tree in which conditionals at any chosen places have their branches
      exchanged, wherever they stand, also inside of branches, loops and expressions,
    • `alike_swap` — expressions do not look into conditionals at all,
    • `byOrder` — the coupling: the same mapping of variables to marks, and outputs that differ
      in their order only,
    • `couples_exchange` — a conditional and the one with exchanged branches,
    • `couples_swap` — a statement and its swapped form, by induction on the statement.
-/
import TaintFlow.Analysis.Analyze
import TaintFlow.Proofs.Alike
import TaintFlow.Proofs.Commutation

namespace TaintFlow

/-! ## §1. Exchanged branches. -/

/-- The way down from the root of a tree to a node: the number of the child at each step. -/
abbrev Position := List Nat

/-- The conditional with its branches exchanged; one without a second branch stays as it is. -/
def Node.exchange : Node → Node
  | .cond test body (some other) => .cond test other (some body)
  | n => n

mutual

/-- The tree in which the conditionals at the chosen places have their branches exchanged. -/
def Node.swap (chosen : Position → Bool) : Node → Node
  | .unknown rawKind reason => .unknown rawKind reason
  | .var name => .var name
  | .string value => .string value
  | .offsetLookup name offset => .offsetLookup name (Node.swapOffset chosen offset)
  | .bin operator left right =>
    .bin operator (left.swap fun way => chosen (0 :: way)) (right.swap fun way => chosen (1 :: way))
  | .call name arguments => .call name (Node.swapAll chosen 0 arguments)
  | .encapsed parts => .encapsed (Node.swapAll chosen 0 parts)
  | .assign left right =>
    .assign (left.swap fun way => chosen (0 :: way)) (right.swap fun way => chosen (1 :: way))
  | .echo arguments => .echo (Node.swapAll chosen 0 arguments)
  | .cond test body alternate =>
    let inner := .cond (test.swap fun way => chosen (0 :: way)) (Node.swapAll chosen 1 body)
      (Node.swapAlternate chosen (1 + body.length) alternate)
    if chosen [] then inner.exchange else inner
  | .loop test body => .loop (test.swap fun way => chosen (0 :: way)) (Node.swapAll chosen 1 body)
  | .block children => .block (Node.swapAll chosen 0 children)

/-- The offset of a read, swapped. -/
def Node.swapOffset (chosen : Position → Bool) : Option Node → Option Node
  | none => none
  | some offset => some (offset.swap fun way => chosen (0 :: way))

/-- The second branch of a conditional, swapped; its first statement has the given number. -/
def Node.swapAlternate (chosen : Position → Bool) (first : Nat) : Option (List Node) → Option (List Node)
  | none => none
  | some body => some (Node.swapAll chosen first body)

/-- Nodes in a row, swapped; the first one has the given number. -/
def Node.swapAll (chosen : Position → Bool) (first : Nat) : List Node → List Node
  | [] => []
  | n :: rest => (n.swap fun way => chosen (first :: way)) :: Node.swapAll chosen (first + 1) rest

end

/-- The program in which the conditionals at the chosen places have their branches exchanged. -/
def Program.swap (chosen : Position → Bool) (p : Program) : Program := ⟨Node.swapAll chosen 0 p.children⟩

/-! ## §2. What stays the same. -/

namespace Node

/-- A conditional is swapped inside, and then exchanged if it is chosen itself. -/
theorem swap_cond_eq (chosen : Position → Bool) (test : Node) (body : List Node) (alternate : Option (List Node)) :
    (Node.cond test body alternate).swap chosen
      = (if chosen [] then Node.exchange else id) (.cond (test.swap fun way => chosen (0 :: way))
          (Node.swapAll chosen 1 body) (Node.swapAlternate chosen (1 + body.length) alternate)) := by
  show (if chosen [] then Node.exchange _ else _) = _
  cases chosen [] <;> rfl

theorem swap_loop (chosen : Position → Bool) (test : Node) (body : List Node) :
    (Node.loop test body).swap chosen = .loop (test.swap fun way => chosen (0 :: way)) (Node.swapAll chosen 1 body) := rfl

theorem swap_block (chosen : Position → Bool) (children : List Node) :
    (Node.block children).swap chosen = .block (Node.swapAll chosen 0 children) := rfl

/-- Without a second branch there is nothing to exchange. -/
theorem swap_cond_none (chosen : Position → Bool) (test : Node) (body : List Node) :
    (Node.cond test body none).swap chosen
      = .cond (test.swap fun way => chosen (0 :: way)) (Node.swapAll chosen 1 body) none := by
  rw [swap_cond_eq]
  cases chosen [] <;> rfl

theorem swap_cond_of_chosen {chosen : Position → Bool} (h : chosen [] = true) (test : Node) (body other : List Node) :
    (Node.cond test body (some other)).swap chosen
      = .cond (test.swap fun way => chosen (0 :: way)) (Node.swapAll chosen (1 + body.length) other)
          (some (Node.swapAll chosen 1 body)) := by
  rw [swap_cond_eq, if_pos h]
  rfl

theorem swap_cond_of_not_chosen {chosen : Position → Bool} (h : chosen [] = false) (test : Node)
    (body other : List Node) :
    (Node.cond test body (some other)).swap chosen
      = .cond (test.swap fun way => chosen (0 :: way)) (Node.swapAll chosen 1 body)
          (some (Node.swapAll chosen (1 + body.length) other)) := by
  rw [swap_cond_eq, if_neg (Bool.eq_false_iff.1 h)]
  rfl

/-- A conditional remains a conditional. -/
theorem swap_cond (chosen : Position → Bool) (test : Node) (body : List Node) (alternate : Option (List Node)) :
    ∃ test' first second, (Node.cond test body alternate).swap chosen = .cond test' first second := by
  cases alternate with
  | none => exact ⟨_, _, _, swap_cond_none chosen test body⟩
  | some other =>
    cases h : chosen [] with
    | true => exact ⟨_, _, _, swap_cond_of_chosen h test body other⟩
    | false => exact ⟨_, _, _, swap_cond_of_not_chosen h test body other⟩

theorem sameKind_swap (chosen : Position → Bool) (n : Node) : n.SameKind (n.swap chosen) := by
  cases n with
  | cond test body alternate =>
    obtain ⟨_, _, _, heq⟩ := swap_cond chosen test body alternate
    rw [heq]
    exact ⟨rfl, rfl⟩
  | unknown | var | string | offsetLookup | bin | call | encapsed | assign | echo | loop | block => exact ⟨rfl, rfl⟩

/-- What holds of each node and its swapped forms holds of the nodes in a row one by one. -/
theorem forall₂_swapAll {R : Node → Node → Prop} {ns : List Node}
    (h : ∀ n ∈ ns, ∀ chosen : Position → Bool, R n (n.swap chosen)) :
    ∀ (chosen : Position → Bool) (first : Nat), List.Forall₂ R ns (Node.swapAll chosen first ns) := by
  induction ns with
  | nil => exact fun _ _ => .nil
  | cons n rest ih =>
    intro chosen first
    refine .cons (h n List.mem_cons_self _) ?_
    exact ih (fun m hm => h m (List.mem_cons_of_mem n hm)) chosen (first + 1)

end Node

/-! ## §3. Expressions and simple statements. -/

/-- **Expressions do not look into conditionals**, so evaluation cannot tell a tree from its swapped forms. -/
theorem alike_swap (n : Node) : ∀ chosen : Position → Bool, n.Alike (n.swap chosen) := by
  induction n using Node.induction with
  | step n ih =>
    intro chosen
    cases n with
    | bin operator left right =>
      exact .bin operator (ih left (by simp [Node.children]) _) (ih right (by simp [Node.children]) _)
    | call name arguments => exact .call name (Node.forall₂_swapAll ih chosen 0)
    | encapsed parts => exact .encapsed (Node.forall₂_swapAll ih chosen 0)
    | cond test body alternate =>
      obtain ⟨_, _, _, heq⟩ := Node.swap_cond chosen test body alternate
      rw [heq]
      exact .cond
    | unknown => exact .unknown
    | var name => exact .var name
    | string value => exact .string value
    | offsetLookup name offset => exact .offsetLookup name
    | assign => exact .assign
    | echo => exact .echo
    | loop => exact .loop
    | block => exact .block

/-- Statements without a body do the same. -/
theorem execute_swap_of_hasBody (o : Options) {n : Node} (h : n.hasBody = false) (chosen : Position → Bool) :
    execute o (n.swap chosen) = execute o n := by
  cases n with
  | assign left right => exact execute_assign_alike (alike_swap left _) (alike_swap right _) o
  | echo arguments => exact execute_echo_alike (Node.forall₂_swapAll (fun n _ => alike_swap n) chosen 0) o
  | cond | loop | block => simp [Node.hasBody] at h
  | unknown | var | string | offsetLookup | bin | call | encapsed => rfl

/-! ## §4. The coupling. -/

/-- **The same patterns, the same mapping of variables to marks, and the same output up to its order.** -/
def byOrder : Coupling where
  active := Eq
  env e e' := ∀ x, e.bindings.get? x = e'.bindings.get? x
  output := Output.SameUpToOrder
  env_join {a a' b b'} ha hb x := by
    refine Env.get?_eq_of_views ?_ ?_
    · rw [Env.mem_names_join, Env.mem_names_join, Env.mem_names_of_get?_eq (ha x), Env.mem_names_of_get?_eq (hb x)]
    · rw [Env.taintOf_join, Env.taintOf_join, Env.taintOf_of_get?_eq (ha x), Env.taintOf_of_get?_eq (hb x)]
  output_refl := Output.SameUpToOrder.refl
  output_append := Output.SameUpToOrder.append

/-- The two sides of a join may be exchanged, as far as the mapping is concerned. -/
theorem Env.get?_join_comm (a b : Env String) (x : String) :
    (a.join b).bindings.get? x = (b.join a).bindings.get? x := by
  refine Env.get?_eq_of_views ?_ ?_
  · rw [Env.mem_names_join, Env.mem_names_join, or_comm]
  · rw [Env.taintOf_join, Env.taintOf_join]
    exact OrderedSet.ext fun m => by rw [OrderedSet.mem_union, OrderedSet.mem_union, or_comm]

/-- What has the same effect in the view of all marks and variables does not depend on the order of either. -/
theorem couples_byOrder_of_view {f : Run → Run} (h : (View.all fun _ => False).coupling.Couples f f) :
    byOrder.Couples f f := by
  intro s t hst
  have hV := View.complete_all fun _ => False
  have henv : ∀ x, s.env.bindings.get? x = t.env.bindings.get? x := hst.env
  have hactive : s.active = t.active := hst.active
  have hrelates : (View.all fun _ => False).coupling.Relates s t := by
    refine ⟨?_, ⟨fun x _ => ?_, fun _ x _ => ?_⟩, hst.guards⟩
    · show t.active = s.active.map _
      rw [map_restrict_of_keeps_all hV, hactive]
    · rw [Env.taintOf_of_get?_eq (henv x)]
      exact View.Same.refl _ _
    · rw [← Env.mem_names_of_get?_eq (henv x)]
      exact (or_iff_left not_false).symm
  obtain ⟨hafter, d, d', hsame, hs, ht⟩ := h s t hrelates
  have henv' : (View.all fun _ => False).SameEnv (f s).env (f t).env := hafter.env
  have hactive' : (f t).active = (f s).active.map _ := hafter.active
  rw [map_restrict_of_keeps_all hV] at hactive'
  obtain rfl : d = d' := View.SameOutput.equal hsame hV
  refine ⟨⟨hactive'.symm, fun x => ?_, hafter.guards⟩, d, d, byOrder.output_refl d, hs, ht⟩
  refine Env.get?_eq_of_views ?_ ((henv'.taints x trivial).eq_of_complete hV)
  rw [henv'.names hV x trivial]
  exact (or_iff_left not_false).symm

section Scoped

variable {o : Options} (ho : o.narrowing = .scoped)
include ho

/-- **Exchanged branches.**  The first branch on the left side is the second one on the right: it starts from
the same environment and patterns, and what the other branch has added before is not read. -/
theorem couples_exchange (guard : Option String) {f g f' g' : Run → Run} (hframed : Framed o f)
    (hframed' : Framed o g') (hfirst : byOrder.Couples f g) (hsecond : byOrder.Couples f' g') :
    byOrder.Couples (branch guard f f') (branch guard g' g) := by
  intro s t hst
  obtain ⟨hactive, henv, hguards⟩ := hst.enter guard
  have hleads := hframed.leads (s.enter guard)
  have hleads' := hframed'.leads (t.enter guard)
  -- a branch leaves nothing in the setting but its environment, and that is set back
  have hleft : byOrder.Relates (s.enter guard) ((g' (t.enter guard)).withEnv t.env) := by
    rw [t.env_enter guard] at henv
    exact ⟨hactive.trans (hleads'.fixed ho).symm, henv, hleads'.guards.trans hguards⟩
  have hright : byOrder.Relates ((f (s.enter guard)).withEnv s.env) (t.enter guard) := by
    rw [s.env_enter guard] at henv
    exact ⟨(hleads.fixed ho).trans hactive, henv, hguards.trans hleads.guards.symm⟩
  obtain ⟨hthen, c, c', hc, hs, ht⟩ := hfirst _ _ hleft
  obtain ⟨helse, d, d', hd, hs', ht'⟩ := hsecond _ _ hright
  have hactive' : (f' ((f (s.enter guard)).withEnv s.env)).active
      = (g ((g' (t.enter guard)).withEnv t.env)).active := by
    calc (f' ((f (s.enter guard)).withEnv s.env)).active = (g' (t.enter guard)).active := helse.active
      _ = (t.enter guard).active := hleads'.fixed ho
      _ = (s.enter guard).active := hactive.symm
      _ = (f (s.enter guard)).active := (hleads.fixed ho).symm
      _ = (g ((g' (t.enter guard)).withEnv t.env)).active := hthen.active
  have hguards' : (g ((g' (t.enter guard)).withEnv t.env)).guards
      = (f' ((f (s.enter guard)).withEnv s.env)).guards := by
    rw [hthen.guards, hleads.guards, ← hguards, ← hleads'.guards, helse.guards]
  have hjoin : byOrder.env ((f (s.enter guard)).env.join (f' ((f (s.enter guard)).withEnv s.env)).env)
      ((g' (t.enter guard)).env.join (g ((g' (t.enter guard)).withEnv t.env)).env) := by
    intro x
    rw [Env.get?_join_comm (g' (t.enter guard)).env]
    exact byOrder.env_join hthen.env helse.env x
  refine ⟨?_, c.append d, d'.append c', ?_, ?_, ?_⟩
  · cases guard with
    | none => exact ⟨hactive', hjoin, hguards'⟩
    | some literal => exact ⟨hactive', hjoin, congrArg List.tail hguards'⟩
  · exact (hc.append hd).trans (Output.SameUpToOrder.append_comm c' d')
  · have hboth : (s.enter guard).Adds (c.append d) _ := hs.trans (hs'.of_record rfl rfl)
    exact hboth.of_record (s.record_enter guard).symm (Run.record_leave _ guard)
  · have hboth : (t.enter guard).Adds (d'.append c') _ := ht'.trans (ht.of_record rfl rfl)
    exact hboth.of_record (t.record_enter guard).symm (Run.record_leave _ guard)

/-! ## §5. Statements. -/

omit ho in
/-- A body and its swapped form, if each statement and its swapped forms are coupled. -/
theorem couples_swapBody {ns : List Node}
    (h : ∀ n ∈ ns, ∀ chosen : Position → Bool, byOrder.Couples (execute o n) (execute o (n.swap chosen)))
    (c : Context) (chosen : Position → Bool) (first : Nat) :
    byOrder.Couples (executeBody o c false ns) (executeBody o c false (Node.swapAll chosen first ns)) := by
  refine (Coupling.Couples.sequentialPair byOrder).body (Node.forall₂_swapAll (fun n hn way => ?_) chosen first) false
  exact ⟨Node.sameKind_swap way n, h n hn way⟩

/-- **A statement and its swapped form.** -/
theorem couples_swap (n : Node) : ∀ chosen : Position → Bool, byOrder.Couples (execute o n) (execute o (n.swap chosen)) := by
  induction n using Node.induction with
  | step n ih =>
    intro chosen
    -- a statement without a body is unchanged, and only the order of variables may differ around it
    by_cases hbody : n.hasBody = false
    · rw [execute_swap_of_hasBody o hbody]
      exact couples_byOrder_of_view (View.couples_execute (fun _ _ => trivial) (.inl (View.complete_all _)))
    · cases n with
      | cond test body alternate =>
        have hthen : ∀ n ∈ body, ∀ chosen : Position → Bool, byOrder.Couples (execute o n) (execute o (n.swap chosen)) :=
          fun n hn => ih n (by simp [Node.children, hn])
        cases alternate with
        | none =>
          rw [Node.swap_cond_none, execute_cond, execute_cond, (alike_swap test _).guardOf]
          exact (couples_swapBody hthen .branch chosen 1).branch _ Coupling.Couples.idle
        | some other =>
          have helse : ∀ n ∈ other, ∀ chosen : Position → Bool,
              byOrder.Couples (execute o n) (execute o (n.swap chosen)) :=
            fun n hn => ih n (by simp [Node.children, hn])
          have hfirst := couples_swapBody hthen .branch chosen 1
          have hsecond := couples_swapBody helse .branch chosen (1 + body.length)
          cases h : chosen [] with
          | false =>
            rw [Node.swap_cond_of_not_chosen h, execute_cond, execute_cond, (alike_swap test _).guardOf]
            exact hfirst.branch _ hsecond
          | true =>
            rw [Node.swap_cond_of_chosen h, execute_cond, execute_cond, (alike_swap test _).guardOf]
            exact couples_exchange ho _ (framed_executeBody o .branch false body)
              (framed_executeBody o .branch false _) hfirst hsecond
      | loop test body =>
        have hiteration : byOrder.Couples (executeBody o .loop false body)
            (executeBody o .loop false (Node.swapAll chosen 1 body)) :=
          couples_swapBody (fun n hn => ih n (by simp [Node.children, hn])) .loop chosen 1
        rw [Node.swap_loop]
        refine hiteration.loop (fun s t hst => ?_) test _
        -- the weight does not depend on the order of variables
        have hafter := (hiteration s t hst).relates.env
        refine Env.weight_le_iff_of_same (X := fun _ => True) ?_ ?_ ?_ ?_
        · exact fun x _ => Env.taintOf_of_get?_eq (hst.env x)
        · exact fun x _ => Env.taintOf_of_get?_eq (hafter x)
        · exact fun _ hx => absurd trivial hx
        · exact fun _ hx => absurd trivial hx
      | block children =>
        rw [Node.swap_block, execute_block, execute_block]
        exact (Coupling.Couples.sequentialPair byOrder).all (Node.forall₂_swapAll (fun n hn => ih n hn) chosen 0)
      | unknown | var | string | offsetLookup | bin | call | encapsed | assign | echo =>
        exact absurd rfl hbody

end Scoped

/-! ## §6. Depth. -/

section Depth

variable (o : Options)

theorem condDepthOf_swapAll {ns : List Node}
    (h : ∀ n ∈ ns, ∀ chosen : Position → Bool, condDepth o (n.swap chosen) = condDepth o n) (c : Context)
    (chosen : Position → Bool) (first : Nat) :
    condDepthOf o c false (Node.swapAll chosen first ns) = condDepthOf o c false ns := by
  refine condDepthOf_congr (Node.forall₂_swapAll (fun n hn way => ?_) chosen first) false
  exact ⟨Node.sameKind_swap way n, h n hn way⟩

/-- The deeper branch may come first or second. -/
theorem condDepth_swap (n : Node) : ∀ chosen : Position → Bool, condDepth o (n.swap chosen) = condDepth o n := by
  induction n using Node.induction with
  | step n ih =>
    intro chosen
    cases n with
    | cond test body alternate =>
      have hbody : condDepthOf o .branch false (Node.swapAll chosen 1 body) = condDepthOf o .branch false body :=
        condDepthOf_swapAll o (fun n hn => ih n (by simp [Node.children, hn])) .branch chosen 1
      cases alternate with
      | none => rw [Node.swap_cond_none, condDepth, condDepth, hbody]
      | some other =>
        have hother : condDepthOf o .branch false (Node.swapAll chosen (1 + body.length) other)
            = condDepthOf o .branch false other :=
          condDepthOf_swapAll o (fun n hn => ih n (by simp [Node.children, hn])) .branch chosen _
        cases h : chosen [] with
        | false =>
          rw [Node.swap_cond_of_not_chosen h, condDepth, condDepth, condDepthAlternate, condDepthAlternate,
            hbody, hother]
        | true =>
          rw [Node.swap_cond_of_chosen h, condDepth, condDepth, condDepthAlternate, condDepthAlternate,
            hbody, hother, Nat.max_comm]
    | loop test body =>
      rw [Node.swap_loop, condDepth, condDepth]
      exact condDepthOf_swapAll o (fun n hn => ih n (by simp [Node.children, hn])) .loop chosen 1
    | block children =>
      rw [Node.swap_block, condDepth, condDepth]
      exact condDepthAll_congr (Node.forall₂_swapAll (fun n hn => ih n hn) chosen 0)
    | unknown | var | string | offsetLookup | bin | call | encapsed | assign | echo => rfl

end Depth

/-! ## §7. Programs. -/

theorem sameUpToOrder_of_moves {s a b : Run} (h : byOrder.Moves s s a b) : a.SameUpToOrder b := by
  obtain ⟨hrelates, d, d', hd, ha, hb⟩ := h
  exact Run.SameUpToOrder.of_outputs ha hb hd hrelates.env hrelates.guards.symm hrelates.active

/-- **The order of branches does not matter**, for any set of conditionals that have two, as long as reading an
entry point leaves the patterns under consideration alone: from every state, both programs end with the same mapping
of variables to marks, the same violations, sanitizers and counts, each as often, and after the same number of
iterations.  An analysis also refuses both for their depth or none. -/
theorem branch_order_irrelevant {o : Options} (ho : o.narrowing = .scoped) (chosen : Position → Bool) (p : Program) :
    (∀ s : Run, (executeAll o p.children s).SameUpToOrder (executeAll o (p.swap chosen).children s)) ∧
    ∀ (limits : Limits) (c : Catalog) (loading : Tally),
      (p.run o c loading).SameUpToOrder ((p.swap chosen).run o c loading) ∧
        (p.analyze limits o c loading).1.isOk = ((p.swap chosen).analyze limits o c loading).1.isOk := by
  have hstates : ∀ s : Run, (executeAll o p.children s).SameUpToOrder (executeAll o (p.swap chosen).children s) := by
    intro s
    have hself : byOrder.Relates s s := ⟨rfl, fun _ => rfl, rfl⟩
    have hcouples : byOrder.Couples (executeAll o p.children) (executeAll o (p.swap chosen).children) :=
      (Coupling.Couples.sequentialPair byOrder).all (Node.forall₂_swapAll (fun n _ => couples_swap ho n) chosen 0)
    exact sameUpToOrder_of_moves (hcouples s s hself)
  refine ⟨hstates, fun limits c loading => ⟨hstates _, ?_⟩⟩
  have hdepth : condDepthAll o (p.swap chosen).children = condDepthAll o p.children :=
    condDepthAll_congr (Node.forall₂_swapAll (fun n _ => condDepth_swap o n) chosen 0)
  unfold Program.analyze
  rw [hdepth]
  split <;> rfl

/-- Input that is read in one branch of a loop and used in the other, where it meets two sinks. -/
def alternatingUse : Program where
  children :=
    [.loop (.var (some "more"))
      [.cond (.bin "==" (.var (some "k")) (.string "raw"))
        [.assign (.var (some "q")) (.offsetLookup (some "_GET") none), .echo []]
        (some
          [.cond (.var (some "b"))
            [.assign (.var (some "r")) (.call (some "query") [.var (some "q")])]
            (some [.assign (.var (some "s")) (.call (some "print") [.var (some "q"), .var none])])])]]

theorem alternatingUse_branch_order :
    let o : Options := { blockStrategy := .all, narrowing := .scoped }
    let c : Catalog := ⟨[.build "SQL" ["$_GET"] ["escape"] ["query"], .build "XSS" ["$_GET"] [] ["print"]]⟩
    -- the conditional in the loop, and the one in its second branch
    let chosen : Position → Bool := fun way => way = [0, 1] ∨ way = [0, 1, 3]
    o.narrowing = .scoped ∧
      (alternatingUse.run o c ∅).SameUpToOrder ((alternatingUse.swap chosen).run o c ∅) ∧
      (alternatingUse.run o c ∅).verdict.violatedPatterns = ["SQL", "XSS"] ∧
      ((alternatingUse.swap chosen).run o c ∅).verdict.violatedPatterns = ["XSS", "SQL"] ∧
      (alternatingUse.run o c ∅).env ≠ ((alternatingUse.swap chosen).run o c ∅).env := by
  intro o c chosen
  have hsame := (branch_order_irrelevant (o := o) rfl chosen alternatingUse).2 .standard c ∅
  exact ⟨rfl, hsame.1, by decide +kernel, by decide +kernel, by decide +kernel⟩

end TaintFlow
