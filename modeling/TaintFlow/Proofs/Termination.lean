/-
  TaintFlow.Proofs.Termination
  ────────────────────────────
  **Every execution ends, and a loop ends after the least number of iterations.**

  `Completes` describes executions without any limit on iterations: a loop body is executed
  again whenever it has added to the weight, however often that may be.  A run that never ended
  would have no final state in this relation.

    • `loop_within` — the states of a loop keep to its own variables and to the marks that are
      there or can come from a pattern,
    • `settle_isLeast` — so the limit that `execute` puts on a loop is never what ends it,
    • `completes_statement_iff` — every execution ends, in the one state that `execute` gives,
    • `loop_iterations_bound` — the iterations of a loop are bounded by variables times marks.
-/
import Mathlib.Order.Bounds.Basic
import TaintFlow.Proofs.Bounds

namespace TaintFlow

/-! ## §1. Executions without a limit. -/

/-- Has the statement other statements inside of it that are executed? -/
def Node.hasBody : Node → Bool
  | .cond .. | .loop .. | .block _ => true
  | _ => false

/-- What can be executed. -/
inductive Task where
  | statement (n : Node)
  | alternate (body : Option (List Node))
  | all (ns : List Node)
  | body (c : Context) (started : Bool) (ns : List Node)
  /-- A loop body, again and again; it takes this many iterations. -/
  | repetition (ns : List Node) (iterations : Nat)

/-- **The execution of a task ends** in the second state if it starts in the first. -/
inductive Completes (o : Options) : Task → Run → Run → Prop where
  | simple {n : Node} {s : Run} : n.hasBody = false → Completes o (.statement n) s (execute o n s)
  | cond {test : Node} {body : List Node} {alternate : Option (List Node)} {s t u : Run} :
      Completes o (.body .branch false body) (s.enter (o.guardOf test)) t →
      Completes o (.alternate alternate) (t.withEnv s.env) u →
      Completes o (.statement (.cond test body alternate)) s
        ((u.leave (o.guardOf test)).withEnv (t.env.join u.env))
  | loop {test : Node} {body : List Node} {s t : Run} {k : Nat} : Completes o (.repetition body k) s t →
      Completes o (.statement (.loop test body)) s (t.finishLoop k)
  | block {children : List Node} {s t : Run} : Completes o (.all children) s t →
      Completes o (.statement (.block children)) s t
  | absent {s : Run} : Completes o (.alternate none) s s
  | present {body : List Node} {s t : Run} : Completes o (.body .branch false body) s t →
      Completes o (.alternate (some body)) s t
  | done {s : Run} : Completes o (.all []) s s
  | next {n : Node} {rest : List Node} {s t u : Run} : Completes o (.statement n) s t →
      Completes o (.all rest) t u → Completes o (.all (n :: rest)) s u
  | bodyDone {c : Context} {started : Bool} {s : Run} : Completes o (.body c started []) s s
  | bodyNext {c : Context} {started : Bool} {n : Node} {rest : List Node} {s t u : Run} :
      o.executes c started n = true → Completes o (.statement n) s t →
      Completes o (.body c true rest) t u → Completes o (.body c started (n :: rest)) s u
  | bodySkip {c : Context} {started : Bool} {n : Node} {rest : List Node} {s t : Run} :
      o.executes c started n = false →
      Completes o (.body c started rest) (s.fallback c.skipReason n.kindName) t →
      Completes o (.body c started (n :: rest)) s t
  | last {ns : List Node} {s t : Run} : Completes o (.body .loop false ns) s t →
      t.env.weight ≤ s.env.weight → Completes o (.repetition ns 1) s t
  | again {ns : List Node} {s t u : Run} {k : Nat} : Completes o (.body .loop false ns) s t →
      s.env.weight < t.env.weight → Completes o (.repetition ns k) t u →
      Completes o (.repetition ns (k + 1)) s u

/-! ## §2. The states of a loop. -/

/-- The state after so many executions of a loop body. -/
def iterated (o : Options) (body : List Node) (i : Nat) (s : Run) : Run := (executeBody o .loop false body)^[i] s

/-- The numbers of iterations after which the last one has added nothing to the weight. -/
def stops (o : Options) (body : List Node) (s : Run) : Set Nat :=
  {k | 1 ≤ k ∧ (iterated o body k s).env.weight ≤ (iterated o body (k - 1) s).env.weight}

/-- The variables and marks that a loop can have, from those before it. -/
def loopBounds (body : List Node) (s : Run) : Bounds where
  patterns := s.active
  guards := s.guards
  name x := x ∈ s.env.names ∨ Node.OccursIn (.var (some x)) body
  mark m := m ∈ s.active.map (·.name) ++ s.env.marks
  report _ := True

section Loop

variable (o : Options) (body : List Node) (s : Run)

theorem permits_loopBounds {n : Node} (hn : n ∈ body) : (loopBounds body s).Permits o n := by
  refine Bounds.Permits.of_marks (fun x hx => .inr ⟨n, hn, hx⟩) (fun p hp => ?_) fun _ _ => trivial
  exact List.mem_append_left _ (List.mem_map_of_mem hp)

/-- **The states of a loop stay within its bounds.** -/
theorem loop_within (i : Nat) : (loopBounds body s).Holds (iterated o body i s) := by
  have hstart : (loopBounds body s).Holds s := by
    refine ⟨fun p hp => hp, rfl, fun x hx => .inl hx, fun x m hm => ?_, fun _ _ => trivial⟩
    exact List.mem_append_right _ (Env.mem_marks.2 ⟨x, hm⟩)
  refine Bounds.iterateEffect ((Bounds.sequential (loopBounds body s)).body (fun n hn => ?_) false) i hstart
  exact Bounds.execute (permits_loopBounds o body s hn)

theorem iterated_succ (i : Nat) :
    iterated o body (i + 1) s = executeBody o .loop false body (iterated o body i s) :=
  Function.iterate_succ_apply' _ i s

/-- No variable is forgotten from one iteration to the next. -/
theorem size_iterated_mono (i : Nat) : (iterated o body i s).env.size ≤ (iterated o body (i + 1) s).env.size := by
  rw [iterated_succ, ← Env.length_names, ← Env.length_names]
  exact ((framed_executeBody o .loop false body).leads (iterated o body i s)).names.length_le

/-- As long as every iteration adds to the weight, there is at least one more pair for each. -/
theorem weight_add_le {k : Nat}
    (h : ∀ i < k, (iterated o body i s).env.weight < (iterated o body (i + 1) s).env.weight) :
    s.env.weight + k ≤ (iterated o body k s).env.weight := by
  induction k with
  | zero => exact Nat.le_refl _
  | succ k ih =>
    have hk := ih fun i hi => h i (by omega)
    have hgrows := h k (by omega)
    omega

theorem weight_iterated_le {M : Finset String} (hM : ∀ m ∈ s.active.map (·.name) ++ s.env.marks, m ∈ M) (i : Nat) :
    (iterated o body i s).env.weight ≤ (iterated o body i s).env.size * M.card :=
  Env.weight_le_mul fun x m hm => hM m ((loop_within o body s i).marks x m hm)

theorem size_iterated_le (i : Nat) :
    (iterated o body i s).env.size ≤ s.env.size + (Node.variableNamesOf body).length := by
  have hsub : (iterated o body i s).env.names ⊆ s.env.names ++ Node.variableNamesOf body := by
    intro x hx
    obtain hx | ⟨n, hn, hocc⟩ := (loop_within o body s i).names x hx
    · exact List.mem_append_left _ hx
    · exact List.mem_append_right _ (Node.mem_variableNamesOf.2 ⟨n, hn, Node.mem_variableNames_of_occurs hocc⟩)
  have hlength := (List.subperm_of_subset (Env.nodup_names _) hsub).length_le
  rw [List.length_append, Env.length_names, Env.length_names] at hlength
  exact hlength

/-- **The limit is above every weight that the loop can reach.** -/
theorem weight_iterated_lt_limit (i : Nat) : (iterated o body i s).env.weight < loopLimit body s := by
  have hweight := weight_iterated_le o body s (fun m hm => List.mem_toFinset.2 hm) i
  have hcard : (s.active.map (·.name) ++ s.env.marks).toFinset.card ≤ s.active.length + s.env.weight := by
    refine (List.toFinset_card_le _).trans ?_
    rw [List.length_append, List.length_map, Env.length_marks]
  have hmul := Nat.mul_le_mul (size_iterated_le o body s i) hcard
  unfold loopLimit
  omega

/-- **A loop takes the least number of iterations after which the last one added nothing.** -/
theorem settle_isLeast :
    IsLeast (stops o body s) (settle (executeBody o .loop false body) (loopLimit body s) s).2 := by
  obtain ⟨k, hk, hle⟩ | ⟨-, hall⟩ := settle_stops (executeBody o .loop false body) (loopLimit body s) s
  · rw [hk]
    refine ⟨⟨by omega, hle⟩, fun j hj => ?_⟩
    obtain ⟨hone, hj⟩ := hj
    -- an earlier stop would be an iteration that adds nothing before the last one
    by_contra hlt
    have hgrows := settle_grows (executeBody o .loop false body) (loopLimit body s) s (i := j - 1) (by omega)
    rw [show j - 1 + 1 = j by omega] at hgrows
    exact absurd hj (Nat.not_le.2 hgrows)
  · have hreached := weight_add_le o body s hall
    have hbelow := weight_iterated_lt_limit o body s (loopLimit body s)
    omega

/-- The state after a loop, by the number of its iterations. -/
theorem execute_loop_of_isLeast (test : Node) {k : Nat} (h : IsLeast (stops o body s) k) :
    execute o (.loop test body) s = (iterated o body k s).finishLoop k := by
  rw [execute_loop]
  unfold repeatBody
  rw [settle_eq_iterate, (settle_isLeast o body s).unique h]
  rfl

/-- **The iterations of a loop are at most as many as there are pairs left**, and one more. -/
theorem loop_iterations_bound {M : Finset String} (hM : ∀ m ∈ s.active.map (·.name) ++ s.env.marks, m ∈ M) {k : Nat}
    (h : IsLeast (stops o body s) k) : k + s.env.weight ≤ (iterated o body k s).env.size * M.card + 1 := by
  obtain ⟨⟨hone, -⟩, hleast⟩ := h
  obtain ⟨j, rfl⟩ : ∃ j, k = j + 1 := ⟨k - 1, by omega⟩
  -- all iterations but the last one add to the weight
  have hgrows : ∀ i < j, (iterated o body i s).env.weight < (iterated o body (i + 1) s).env.weight := by
    intro i hi
    by_contra hstays
    have hstop : i + 1 ∈ stops o body s := ⟨by omega, Nat.not_lt.1 hstays⟩
    have hle := hleast hstop
    omega
  have hreached := weight_add_le o body s hgrows
  have hweight := weight_iterated_le o body s hM j
  have hsize := Nat.mul_le_mul_right M.card (size_iterated_mono o body s j)
  omega

/-- After an iteration that adds to the weight, what remains is the same loop from there. -/
theorem succ_mem_stops (hgrows : s.env.weight < (executeBody o .loop false body s).env.weight) (j : Nat) :
    j + 1 ∈ stops o body s ↔ j ∈ stops o body (executeBody o .loop false body s) := by
  cases j with
  | zero =>
    constructor
    · rintro ⟨-, hle⟩
      exact absurd hle (Nat.not_le.2 hgrows)
    · rintro ⟨hone, -⟩
      omega
  | succ i =>
    constructor
    · rintro ⟨-, hle⟩
      exact ⟨by omega, hle⟩
    · rintro ⟨-, hle⟩
      exact ⟨by omega, hle⟩

theorem isLeast_stops_succ (hgrows : s.env.weight < (executeBody o .loop false body s).env.weight) (k : Nat) :
    IsLeast (stops o body s) (k + 1) ↔ IsLeast (stops o body (executeBody o .loop false body s)) k := by
  constructor
  · rintro ⟨hmem, hleast⟩
    refine ⟨(succ_mem_stops o body s hgrows k).1 hmem, fun j hj => ?_⟩
    have hle := hleast ((succ_mem_stops o body s hgrows j).2 hj)
    omega
  · rintro ⟨hmem, hleast⟩
    refine ⟨(succ_mem_stops o body s hgrows k).2 hmem, fun j hj => ?_⟩
    obtain ⟨i, rfl⟩ : ∃ i, j = i + 1 := ⟨j - 1, by have hone := hj.1; omega⟩
    have hle := hleast ((succ_mem_stops o body s hgrows i).1 hj)
    omega

theorem isLeast_stops_one (hstays : (executeBody o .loop false body s).env.weight ≤ s.env.weight) :
    IsLeast (stops o body s) 1 :=
  ⟨⟨Nat.le_refl 1, hstays⟩, fun _ hj => hj.1⟩

end Loop

/-! ## §3. Every execution is complete. -/

/-- The final state of a task, and for a repetition also how many iterations it takes. -/
def Task.Outcome (o : Options) : Task → Run → Run → Prop
  | .statement n, s, t => t = execute o n s
  | .alternate branch, s, t => t = executeAlternate o branch s
  | .all ns, s, t => t = executeAll o ns s
  | .body c started ns, s, t => t = executeBody o c started ns s
  | .repetition ns k, s, t => IsLeast (stops o ns s) k ∧ t = iterated o ns k s

section Complete

variable {o : Options}

/-- An execution ends nowhere else than where `execute` says. -/
theorem Completes.outcome {task : Task} {s t : Run} (h : Completes o task s t) : task.Outcome o s t := by
  induction h with
  | simple _ => rfl
  | cond _ _ hthen helse =>
    obtain rfl := hthen
    obtain rfl := helse
    show _ = execute o _ _
    rw [execute_cond]
    rfl
  | loop _ ih =>
    obtain ⟨hleast, rfl⟩ := ih
    exact (execute_loop_of_isLeast o _ _ _ hleast).symm
  | block _ ih =>
    obtain rfl := ih
    show _ = execute o _ _
    rw [execute_block]
  | absent =>
    show _ = executeAlternate o none _
    rw [executeAlternate_none, id]
  | present _ ih =>
    obtain rfl := ih
    show _ = executeAlternate o (some _) _
    rw [executeAlternate_some]
  | done =>
    show _ = executeAll o [] _
    rw [executeAll_nil, id]
  | next _ _ hn hrest =>
    obtain rfl := hn
    obtain rfl := hrest
    show _ = executeAll o (_ :: _) _
    rw [executeAll_cons, Function.comp_apply]
  | bodyDone =>
    show _ = executeBody o _ _ [] _
    rw [executeBody_nil, id]
  | bodyNext hexecutes _ _ hn hrest =>
    obtain rfl := hn
    obtain rfl := hrest
    show _ = executeBody o _ _ (_ :: _) _
    rw [executeBody_cons_of_executes hexecutes, Function.comp_apply]
  | bodySkip hskips _ ih =>
    obtain rfl := ih
    show _ = executeBody o _ _ (_ :: _) _
    rw [executeBody_cons_of_skips hskips, Function.comp_apply]
  | last _ hstays ih =>
    obtain rfl := ih
    exact ⟨isLeast_stops_one o _ _ hstays, rfl⟩
  | again _ hgrows _ ih hrest =>
    obtain rfl := ih
    obtain ⟨hleast, rfl⟩ := hrest
    exact ⟨(isLeast_stops_succ o _ _ hgrows _).2 hleast, rfl⟩

theorem completes_all {ns : List Node} (h : ∀ n ∈ ns, ∀ s, Completes o (.statement n) s (execute o n s)) :
    ∀ s, Completes o (.all ns) s (executeAll o ns s) := by
  induction ns with
  | nil =>
    intro s
    rw [executeAll_nil]
    exact .done
  | cons n rest ih =>
    intro s
    rw [executeAll_cons]
    exact .next (h n List.mem_cons_self s) (ih (fun m hm => h m (List.mem_cons_of_mem n hm)) _)

theorem completes_body {ns : List Node} (h : ∀ n ∈ ns, ∀ s, Completes o (.statement n) s (execute o n s))
    (c : Context) : ∀ started s, Completes o (.body c started ns) s (executeBody o c started ns s) := by
  induction ns with
  | nil =>
    intro started s
    rw [executeBody_nil]
    exact .bodyDone
  | cons n rest ih =>
    intro started s
    have hrest := ih fun m hm => h m (List.mem_cons_of_mem n hm)
    cases hn : o.executes c started n with
    | true =>
      rw [executeBody_cons_of_executes hn]
      exact .bodyNext hn (h n List.mem_cons_self s) (hrest true _)
    | false =>
      rw [executeBody_cons_of_skips hn]
      exact .bodySkip hn (hrest started _)

theorem completes_alternate {alternate : Option (List Node)}
    (h : ∀ ns ∈ alternate, ∀ n ∈ ns, ∀ s, Completes o (.statement n) s (execute o n s)) (s : Run) :
    Completes o (.alternate alternate) s (executeAlternate o alternate s) := by
  cases alternate with
  | none =>
    rw [executeAlternate_none]
    exact .absent
  | some ns =>
    rw [executeAlternate_some]
    exact .present (completes_body (h ns rfl) .branch false s)

/-- A repetition ends after the least number of iterations, if its body always ends. -/
theorem completes_repetition {body : List Node}
    (h : ∀ s, Completes o (.body .loop false body) s (executeBody o .loop false body s)) {k : Nat} :
    ∀ s, IsLeast (stops o body s) k → Completes o (.repetition body k) s (iterated o body k s) := by
  induction k with
  | zero =>
    intro s hleast
    have hone := hleast.1.1
    omega
  | succ k ih =>
    intro s hleast
    by_cases hgrows : s.env.weight < (executeBody o .loop false body s).env.weight
    · exact .again (h s) hgrows (ih _ ((isLeast_stops_succ o body s hgrows k).1 hleast))
    · have hstays := Nat.not_lt.1 hgrows
      obtain rfl : k = 0 := by
        have hone := hleast.unique (isLeast_stops_one o body s hstays)
        omega
      exact .last (h s) hstays

theorem completes_execute (n : Node) : ∀ s, Completes o (.statement n) s (execute o n s) := by
  induction n using Node.induction with
  | step n ih =>
    intro s
    cases n with
    | cond test body alternate =>
      rw [execute_cond]
      refine .cond (completes_body (fun n hn => ih n ?_) .branch false _)
        (completes_alternate (fun ns hns n hn => ih n ?_) _)
      · simp [Node.children, hn]
      · simp [Node.children, Option.mem_def.1 hns, hn]
    | loop test body =>
      have hbody : ∀ s, Completes o (.body .loop false body) s (executeBody o .loop false body s) :=
        completes_body (fun n hn => ih n (by simp [Node.children, hn])) .loop false
      have hleast := settle_isLeast o body s
      rw [execute_loop_of_isLeast o body s test hleast]
      exact .loop (completes_repetition hbody s hleast)
    | block children =>
      rw [execute_block]
      exact .block (completes_all (fun n hn => ih n hn) s)
    | unknown | var | string | offsetLookup | bin | call | encapsed | assign | echo => exact .simple rfl

/-- **The execution of statements ends in exactly one state.** -/
theorem completes_statement_iff {n : Node} {s t : Run} : Completes o (.statement n) s t ↔ t = execute o n s := by
  constructor
  · exact fun h => h.outcome
  · rintro rfl
    exact completes_execute n s

theorem completes_all_iff {ns : List Node} {s t : Run} : Completes o (.all ns) s t ↔ t = executeAll o ns s := by
  constructor
  · exact fun h => h.outcome
  · rintro rfl
    exact completes_all (fun n _ => completes_execute n) s

end Complete

/-! ## §4. Termination with the bound. -/

/-- **Every execution ends, and every loop after the least number `k` of iterations whose last one adds
nothing to the weight.**  It leaves the environment after `k` executions of the body, adds `k` to the
iterations that loops inside of the body have counted, and `k` with the weight before is at most the number of
variables times the number of names, and one more; all variables are from before or stand in the body. -/
theorem executions_end_and_loops_settle (o : Options) :
    (∀ (n : Node) (s t : Run), Completes o (.statement n) s t ↔ t = execute o n s) ∧
    (∀ (ns : List Node) (s t : Run), Completes o (.all ns) s t ↔ t = executeAll o ns s) ∧
    ∀ (c : Catalog) (test : Node) (body : List Node) (s : Run), s.active ⊆ c.patterns →
      ∃ k, IsLeast {k | 1 ≤ k ∧ (iterated o body k s).env.weight ≤ (iterated o body (k - 1) s).env.weight} k ∧
        Completes o (.repetition body k) s (iterated o body k s) ∧
        execute o (.loop test body) s = (iterated o body k s).finishLoop k ∧
        (execute o (.loop test body) s).env = (iterated o body k s).env ∧
        (execute o (.loop test body) s).verdict.loopIterations
          = (iterated o body k s).verdict.loopIterations + k ∧
        k + s.env.weight
          ≤ (iterated o body k s).env.size * (c.names ++ s.env.marks).toFinset.card + 1 ∧
        ∀ x ∈ (iterated o body k s).env.names, x ∈ s.env.names ∨ Node.OccursIn (.var (some x)) body := by
  refine ⟨fun n s t => completes_statement_iff, fun ns s t => completes_all_iff, ?_⟩
  intro c test body s hactive
  have hleast := settle_isLeast o body s
  have hloop := execute_loop_of_isLeast o body s test hleast
  have hnames : ∀ m ∈ s.active.map (·.name) ++ s.env.marks, m ∈ (c.names ++ s.env.marks).toFinset := by
    intro m hm
    rw [List.mem_toFinset]
    obtain hm | hm := List.mem_append.1 hm
    · obtain ⟨p, hp, rfl⟩ := List.mem_map.1 hm
      exact List.mem_append_left _ (List.mem_map_of_mem (hactive hp))
    · exact List.mem_append_right _ hm
  have hbody : ∀ s, Completes o (.body .loop false body) s (executeBody o .loop false body s) :=
    completes_body (fun n _ => completes_execute n) .loop false
  refine ⟨_, hleast, completes_repetition hbody s hleast, hloop, ?_, ?_,
    loop_iterations_bound o body s hnames hleast, (loop_within o body s _).names⟩
  · rw [hloop]
    rfl
  · rw [hloop]
    rfl

/-- A loop in a branch of a loop, along which a mark wanders from variable to variable. -/
def wanderingMark : List Node :=
  [.cond (.var (some "go"))
    [.loop (.var (some "more")) [.assign (.var (some "c")) (.bin "." (.var (some "c")) (.var (some "b")))]]
    none,
   .assign (.var (some "b")) (.bin "." (.var (some "b")) (.var (some "a"))),
   .assign (.var (some "a")) (.offsetLookup (some "_GET") none)]

theorem wanderingMark_settles :
    let o : Options := { blockStrategy := .all }
    let c : Catalog := ⟨[.build "SQL" ["$_GET"] ["escape"] ["query"]]⟩
    (Run.start c).active ⊆ c.patterns ∧
      ∃ k, 3 < k ∧ Completes o (.repetition wanderingMark k) (Run.start c) (iterated o wanderingMark k (Run.start c)) ∧
        k + (Run.start c).env.weight ≤ (iterated o wanderingMark k (Run.start c)).env.size * 1 + 1 := by
  intro o c
  have hactive : (Run.start c).active ⊆ c.patterns := fun p hp => hp
  obtain ⟨k, ⟨⟨hone, hstop⟩, -⟩, hcompletes, -, -, -, hbound, -⟩ :=
    (executions_end_and_loops_settle o).2.2 c (.var none) wanderingMark (Run.start c) hactive
  refine ⟨hactive, k, ?_, hcompletes, hbound⟩
  -- the first three iterations each carry the mark to one more variable
  have hgrows : ∀ i ∈ [1, 2, 3], ¬ (iterated o wanderingMark i (Run.start c)).env.weight
      ≤ (iterated o wanderingMark (i - 1) (Run.start c)).env.weight := by decide +kernel
  by_contra hk
  exact hgrows k (by simp; omega) hstop

end TaintFlow
