/-
  TaintFlow.Proofs.Paths
  ──────────────────────
  **Joins lose nothing: without loops, an execution is the union of its paths.**

  On a path each conditional that is executed takes one of its branches and keeps the
  environment of that branch (`paths`).  There are exponentially many of them; the execution
  computes their union in one pass.

    • `Follows` — an effect takes a join of runs to the join of all paths from them,
    • `follows_branch` — a conditional does if its branches do,
    • `follows_execute` — and so does every statement without loops,
    • `executeAll_union_of_paths` — variables, marks, violations and sanitizers after statements
      in a row are those of all paths together.
-/
import TaintFlow.Proofs.Joins

namespace TaintFlow

/-! ## §1. Paths. -/

mutual

/-- The final states of the paths through a statement. -/
def paths (o : Options) : Node → Run → List Run
  | .cond test body alternate, s =>
    let start := s.enter (o.guardOf test)
    (pathsBody o .branch false body start ++ pathsAlternate o alternate start).map fun r =>
      r.leave (o.guardOf test)
  | .block children, s => pathsAll o children s
  | n, s => [execute o n s]

/-- The paths through the second branch of a conditional; an absent one has the path that does
nothing. -/
def pathsAlternate (o : Options) : Option (List Node) → Run → List Run
  | none, s => [s]
  | some body, s => pathsBody o .branch false body s

/-- The paths through statements in a row. -/
def pathsAll (o : Options) : List Node → Run → List Run
  | [], s => [s]
  | n :: rest, s => (paths o n s).flatMap fun r => pathsAll o rest r

/-- The paths through the body of a branch or a loop. -/
def pathsBody (o : Options) (c : Context) (started : Bool) : List Node → Run → List Run
  | [], s => [s]
  | n :: rest, s =>
    if o.executes c started n then (paths o n s).flatMap fun r => pathsBody o c true rest r
    else pathsBody o c started rest (s.fallback c.skipReason n.kindName)

end

mutual

/-- No statement in it is a loop. -/
def Node.loopFree : Node → Bool
  | .loop .. => false
  | .cond _ body alternate => Node.loopFreeAll body && Node.loopFreeAlternate alternate
  | .block children => Node.loopFreeAll children
  | _ => true

/-- No statement of the second branch of a conditional is a loop. -/
def Node.loopFreeAlternate : Option (List Node) → Bool
  | none => true
  | some body => Node.loopFreeAll body

/-- No statement in a row is a loop. -/
def Node.loopFreeAll : List Node → Bool
  | [] => true
  | n :: rest => Node.loopFree n && Node.loopFreeAll rest

end

theorem Node.loopFree_of_mem {ns : List Node} (h : Node.loopFreeAll ns = true) :
    ∀ n ∈ ns, n.loopFree = true := by
  induction ns with
  | nil => exact fun n hn => absurd hn List.not_mem_nil
  | cons m rest ih =>
    rw [Node.loopFreeAll, Bool.and_eq_true] at h
    intro n hn
    obtain rfl | hn := List.mem_cons.1 hn
    · exact h.1
    · exact ih h.2 n hn

theorem Node.loopFree_of_mem_alternate {alternate : Option (List Node)}
    (h : Node.loopFreeAlternate alternate = true) : ∀ ns ∈ alternate, ∀ n ∈ ns, n.loopFree = true := by
  rintro ns hns
  obtain rfl := Option.mem_def.1 hns
  rw [Node.loopFreeAlternate] at h
  exact Node.loopFree_of_mem h

/-! ## §2. Effects and their paths. -/

/-- The effect takes a join of runs to the join of all paths from them. -/
structure Follows (f : Run → Run) (path : Run → List Run) : Prop where
  join {tracked : Prop} {b s : Run} {rs : List Run} :
    JoinOf tracked b s rs id → JoinOf tracked b (f s) (rs.flatMap path) id

namespace Follows

variable {f g : Run → Run} {path path' : Run → List Run}

/-- An effect that distributes has one path. -/
theorem of_distributes (hf : Distributes f) : Follows f fun s => [f s] := by
  refine ⟨fun h => (hf.join h).reindex (fun r hr => ?_) fun t ht => ?_⟩
  · exact ⟨f r, List.mem_flatMap.2 ⟨r, hr, List.mem_singleton_self _⟩, rfl⟩
  · obtain ⟨r, hr, ht⟩ := List.mem_flatMap.1 ht
    exact ⟨r, hr, (List.mem_singleton.1 ht).symm⟩

theorem andThen (hf : Follows f path) (hg : Follows g path') :
    Follows (g ∘ f) fun s => (path s).flatMap path' := by
  refine ⟨fun h => ?_⟩
  have h' := hg.join (hf.join h)
  rwa [List.flatMap_assoc] at h'

end Follows

theorem distributes_enter (guard : Option String) : Distributes fun s => s.enter guard := by
  cases guard with
  | none => exact Distributes.idle
  | some literal =>
    refine ⟨fun h => ?_⟩
    exact ⟨h.inhabited, h.active, fun i hi => congrArg (literal :: ·) (h.guards i hi), h.names, h.taints,
      h.precedes.of_verdict rfl, fun i hi => (h.precedes_all i hi).of_verdict rfl, fun φ => by
        simp only [Run.finds_of_verdict (Run.verdict_enter _ (some literal))]
        exact h.finds φ⟩

/-- **The paths through a conditional are those through its branches.** -/
theorem follows_branch {o : Options} (hscoped : o.narrowing = .scoped) {first second : Run → Run}
    {path path' : Run → List Run} (hfirst : Framed o first) (hsecond : Framed o second)
    (hpath : Follows first path) (hpath' : Follows second path') (guard : Option String) :
    Follows (branch guard first second) fun s =>
      (path (s.enter guard) ++ path' (s.enter guard)).map fun r => r.leave guard := by
  refine ⟨fun {tracked b s rs} h => ?_⟩
  have henter : JoinOf tracked b (s.enter guard) (rs.map fun r => r.enter guard) id := by
    refine ((distributes_enter guard).join h).reindex (fun r hr => ?_) fun t ht => ?_
    · exact ⟨r.enter guard, List.mem_map.2 ⟨r, hr, rfl⟩, rfl⟩
    · obtain ⟨r, hr, ht⟩ := List.mem_map.1 ht
      exact ⟨r, hr, ht⟩
  have hjoin := joinOf_branch hscoped hfirst hsecond h.precedes guard (hpath.join henter) (hpath'.join henter)
  -- the same runs in another order: first by branch, then by starting point, or the other way
  refine hjoin.reindex (fun t ht => ?_) fun u hu => ?_
  · refine ⟨t.leave guard, ?_, rfl⟩
    simp only [List.mem_append, List.mem_flatMap, List.mem_map] at ht ⊢
    obtain ⟨_, ⟨r, hr, rfl⟩, ht⟩ | ⟨_, ⟨r, hr, rfl⟩, ht⟩ := ht
    · exact ⟨r, hr, t, .inl ht, rfl⟩
    · exact ⟨r, hr, t, .inr ht, rfl⟩
  · simp only [List.mem_append, List.mem_flatMap, List.mem_map] at hu ⊢
    obtain ⟨r, hr, t, ht | ht, heq⟩ := hu
    · exact ⟨t, .inl ⟨_, ⟨r, hr, rfl⟩, ht⟩, heq⟩
    · exact ⟨t, .inr ⟨_, ⟨r, hr, rfl⟩, ht⟩, heq⟩

/-! ## §3. Statements. -/

section Statements

variable {o : Options}

theorem follows_executeAll {ns : List Node} (h : ∀ n ∈ ns, Follows (execute o n) (paths o n)) :
    Follows (executeAll o ns) (pathsAll o ns) := by
  induction ns with
  | nil =>
    rw [executeAll_nil, show pathsAll o [] = fun s => [id s] from rfl]
    exact Follows.of_distributes Distributes.idle
  | cons n rest ih =>
    rw [executeAll_cons, show pathsAll o (n :: rest) = fun s => (paths o n s).flatMap (pathsAll o rest) from
      rfl]
    exact (h n List.mem_cons_self).andThen (ih fun m hm => h m (List.mem_cons_of_mem n hm))

theorem follows_executeBody {ns : List Node} (h : ∀ n ∈ ns, Follows (execute o n) (paths o n)) (c : Context) :
    ∀ started, Follows (executeBody o c started ns) (pathsBody o c started ns) := by
  induction ns with
  | nil =>
    intro started
    rw [executeBody_nil, show pathsBody o c started [] = fun s => [id s] from rfl]
    exact Follows.of_distributes Distributes.idle
  | cons n rest ih =>
    intro started
    have hrest := ih fun m hm => h m (List.mem_cons_of_mem n hm)
    cases hn : o.executes c started n with
    | true =>
      rw [executeBody_cons_of_executes hn, show pathsBody o c started (n :: rest)
          = fun s => (paths o n s).flatMap (pathsBody o c true rest) from
        funext fun _ => if_pos hn]
      exact (h n List.mem_cons_self).andThen (hrest true)
    | false =>
      rw [executeBody_cons_of_skips hn, show pathsBody o c started (n :: rest)
          = fun s => [s.fallback c.skipReason n.kindName].flatMap (pathsBody o c started rest) from
        funext fun _ => (if_neg (by simp [hn])).trans (List.flatMap_singleton _ _).symm]
      exact (Follows.of_distributes (Distributes.fallback _ _)).andThen (hrest started)

theorem follows_executeAlternate {alternate : Option (List Node)}
    (h : ∀ ns ∈ alternate, ∀ n ∈ ns, Follows (execute o n) (paths o n)) :
    Follows (executeAlternate o alternate) (pathsAlternate o alternate) := by
  cases alternate with
  | none =>
    rw [executeAlternate_none, show pathsAlternate o none = fun s => [id s] from
      rfl]
    exact Follows.of_distributes Distributes.idle
  | some ns =>
    rw [executeAlternate_some, show pathsAlternate o (some ns) = pathsBody o .branch false ns from
      rfl]
    exact follows_executeBody (h ns rfl) .branch false

/-- A statement that is only counted has one path. -/
theorem follows_inert {n : Node} {reason detail : String} (hpath : ∀ s, paths o n s = [execute o n s])
    (h : ∀ s, execute o n s = s.fallback reason detail) : Follows (execute o n) (paths o n) := by
  rw [show paths o n = fun s => [execute o n s] from funext hpath]
  refine Follows.of_distributes ?_
  rw [funext h]
  exact Distributes.fallback reason detail

/-- **A statement without loops follows its paths.** -/
theorem follows_execute (hscoped : o.narrowing = .scoped) (n : Node) :
    n.loopFree = true → Follows (execute o n) (paths o n) := by
  induction n using Node.induction with
  | step n ih =>
    intro hfree
    cases n with
    | cond test body alternate =>
      rw [Node.loopFree, Bool.and_eq_true] at hfree
      have hbody : ∀ n ∈ body, Follows (execute o n) (paths o n) := fun n hn =>
        ih n (by simp [Node.children, hn]) (Node.loopFree_of_mem hfree.1 n hn)
      have halternate : ∀ ns ∈ alternate, ∀ n ∈ ns, Follows (execute o n) (paths o n) := fun ns hns n hn =>
        ih n (by simp [Node.children, Option.mem_def.1 hns, hn]) (Node.loopFree_of_mem_alternate hfree.2 ns hns n hn)
      rw [execute_cond, show paths o (.cond test body alternate) = fun s =>
          (pathsBody o .branch false body (s.enter (o.guardOf test))
            ++ pathsAlternate o alternate (s.enter (o.guardOf test))).map fun r => r.leave (o.guardOf test) from
        rfl]
      exact follows_branch hscoped (framed_executeBody o .branch false body) (framed_executeAlternate o alternate)
        (follows_executeBody hbody .branch false) (follows_executeAlternate halternate) (o.guardOf test)
    | block children =>
      rw [Node.loopFree] at hfree
      rw [execute_block, show paths o (.block children) = pathsAll o children from rfl]
      exact follows_executeAll fun n hn => ih n hn (Node.loopFree_of_mem hfree n hn)
    | loop test body => simp [Node.loopFree] at hfree
    | assign left right =>
      rw [show paths o (.assign left right) = fun s => [execute o (.assign left right) s] from rfl]
      exact Follows.of_distributes (distributes_assign hscoped left right)
    | echo arguments =>
      rw [show paths o (.echo arguments) = fun s => [execute o (.echo arguments) s] from rfl, execute_echo]
      exact Follows.of_distributes (distributes_echo hscoped arguments)
    | unknown rawKind reason =>
      exact follows_inert (fun _ => rfl) fun _ => rfl
    | var | string | offsetLookup | bin | call | encapsed =>
      exact follows_inert (fun _ => rfl) fun _ => rfl

end Statements

/-! ## §4. The union of all paths. -/

/-- **Without loops, an execution is the union of its paths**: in the registered variables, in the
marks of each of them, and in the violations and sanitizers that are listed after those from before. -/
theorem executeAll_union_of_paths {o : Options} (hscoped : o.narrowing = .scoped) {ns : List Node}
    (hfree : Node.loopFreeAll ns = true) (s : Run) :
    (∀ x, x ∈ (executeAll o ns s).env.names ↔ ∃ r ∈ pathsAll o ns s, x ∈ r.env.names) ∧
    (∀ x m, m ∈ (executeAll o ns s).env.taintOf x ↔ ∃ r ∈ pathsAll o ns s, m ∈ r.env.taintOf x) ∧
    (∀ p, p ∈ s.violatedSince (executeAll o ns s) ↔ ∃ r ∈ pathsAll o ns s, p ∈ s.violatedSince r) ∧
    (∀ f, f ∈ s.sanitizersSince (executeAll o ns s) ↔ ∃ r ∈ pathsAll o ns s, f ∈ s.sanitizersSince r) ∧
    ∀ r ∈ executeAll o ns s :: pathsAll o ns s, s.Precedes r := by
  have hfollows : Follows (executeAll o ns) (pathsAll o ns) :=
    follows_executeAll fun n hn => follows_execute hscoped n (Node.loopFree_of_mem hfree n hn)
  have h := hfollows.join (JoinOf.single True (Run.Precedes.refl s))
  rw [List.flatMap_singleton] at h
  refine ⟨h.names trivial, h.taints, fun p => h.finds (.violation p), fun f => h.finds (.sanitizer f), ?_⟩
  intro r hr
  obtain rfl | hr := List.mem_cons.1 hr
  · exact h.precedes
  · exact h.precedes_all r hr

/-- Two conditionals in a row; only one of the paths reaches the query without the sanitizer. -/
def branchingQuery : List Node :=
  [.cond (.bin "==" (.var (some "mode")) (.string "raw"))
    [.assign (.var (some "q")) (.offsetLookup (some "_GET") none)]
    (some [.assign (.var (some "q")) (.string "fixed")]),
   .cond (.var (some "safe")) [.assign (.var (some "t")) (.call (some "escape") [.var (some "q")])] none,
   .assign (.var (some "r")) (.call (some "query") [.var (some "q")])]

theorem branchingQuery_union_of_paths :
    let start := Run.start ⟨[.build "SQL" ["$_GET"] ["escape"] ["query"]]⟩
    Node.loopFreeAll branchingQuery = true ∧ (pathsAll {} branchingQuery start).length = 4 ∧
      ((pathsAll {} branchingQuery start).filter fun r => "SQL" ∈ start.violatedSince r).length = 1 ∧
      "SQL" ∈ start.violatedSince (executeAll {} branchingQuery start) ∧
      "escape" ∈ start.sanitizersSince (executeAll {} branchingQuery start) ∧
      "t" ∈ (executeAll {} branchingQuery start).env.names := by
  have hfree : Node.loopFreeAll branchingQuery = true := by decide +kernel
  obtain ⟨hnames, -, hviolated, hsanitizers, -⟩ := executeAll_union_of_paths (o := {}) rfl hfree
    (Run.start ⟨[.build "SQL" ["$_GET"] ["escape"] ["query"]]⟩)
  refine ⟨hfree, by decide +kernel, by decide +kernel, (hviolated "SQL").2 ?_, (hsanitizers "escape").2 ?_,
    (hnames "t").2 ?_⟩ <;> decide +kernel

end TaintFlow
