/-
  TaintFlow.Proofs.LeastFixedPoint
  ────────────────────────────────
  **A loop that only accumulates ends in the least fixed point of its body.**

  A loop ends when an iteration adds nothing to the weight, which compares two numbers and not
  two environments.  For a body that only accumulates (`Node.Accumulates`: what is assigned to
  a variable has the marks that the variable had) this is enough:

    • `Accumulator` — effects that never take marks away, are monotone, and register the same
      variables in every state,
    • `Accumulator.settled` — if an execution adds nothing to the weight, the next one changes
      nothing at all,
    • `Accumulator.iterate_below` — all iterates are below everything that is above the start
      and closed under the effect,
    • `accumulator_executeBody` — bodies that accumulate have such an effect.
-/
import TaintFlow.Proofs.Paths
import TaintFlow.Proofs.Termination

namespace TaintFlow

/-! ## §1. Accumulators. -/

/-- **An effect that accumulates.** -/
structure Accumulator (o : Options) (f : Run → Run) : Prop where
  framed : Framed o f
  inflationary : ∀ s : Run, s.env.Below (f s).env
  monotone : ∀ (s : Run) (e : Env String), s.env.Below e → (f s).env.Below (f (s.withEnv e)).env
  registers : ∃ W : String → Prop, ∀ (s : Run) (x : String), x ∈ (f s).env.names ↔ x ∈ s.env.names ∨ W x

/-- The marks that an effect leaves are monotone if it joins its paths. -/
theorem Follows.monotone {f : Run → Run} {path : Run → List Run} (hf : Follows f path) (s : Run) {e : Env String}
    (hbelow : s.env.Below e) : (f s).env.Below (f (s.withEnv e)).env := by
  -- with more marks, the state is the join of itself and the one with fewer; its variables do not matter
  have hjoin : JoinOf False s (s.withEnv e) [s, s.withEnv e] id := by
    have hverdict : (s.withEnv e).verdict = s.verdict := rfl
    have hself : s.Precedes (s.withEnv e) := (Run.Precedes.refl s).of_verdict hverdict
    refine ⟨⟨s, List.mem_cons_self⟩, ?_, ?_, False.elim, fun x m => ?_, hself, ?_, fun f => ?_⟩
    · simp [Run.withEnv]
    · simp [Run.withEnv]
    · constructor
      · exact fun hm => ⟨s.withEnv e, by simp, hm⟩
      · rintro ⟨r, hr, hm⟩
        obtain rfl | rfl : r = s ∨ r = s.withEnv e := by simpa using hr
        · exact hbelow x m hm
        · exact hm
    · intro r hr
      obtain rfl | rfl : r = s ∨ r = s.withEnv e := by simpa using hr
      · exact Run.Precedes.refl r
      · exact hself
    · simp [Run.finds_of_verdict hverdict]
  have hmore := hf.join hjoin
  have hless := hf.join (JoinOf.single False (Run.Precedes.refl s))
  intro x m hm
  obtain ⟨r, hr, hm⟩ := (hless.taints x m).1 hm
  refine (hmore.taints x m).2 ⟨r, ?_, hm⟩
  rw [List.flatMap_singleton] at hr
  rw [List.flatMap_cons]
  exact List.mem_append_left _ hr

namespace Accumulator

variable {o : Options} {f : Run → Run}

/-- Only the environments have to be compared, as long as the rest of the setting is the same. -/
theorem below_of_below (hf : Accumulator o f) {s t : Run} (hactive : t.active = s.active) (hguards : t.guards = s.guards)
    (hbelow : s.env.Below t.env) : (f s).env.Below (f t).env := by
  have hagrees : t.Agrees (s.withEnv t.env) := ⟨hactive, rfl, hguards⟩
  rw [(hf.framed.agrees hagrees).env]
  exact hf.monotone s t.env hbelow

theorem leads_iterate (hf : Accumulator o f) (s : Run) (i : Nat) : s.Leads o (f^[i] s) := by
  induction i with
  | zero => exact Run.Leads.refl o s
  | succ i ih =>
    rw [Function.iterate_succ_apply']
    exact ih.trans (hf.framed.leads (f^[i] s))

/-- **An execution that adds nothing to the weight is followed by one that changes nothing.** -/
theorem settled (hf : Accumulator o f) (hscoped : o.narrowing = .scoped) {s : Run}
    (hweight : (f s).env.weight ≤ s.env.weight) : (f (f s)).env = (f s).env := by
  have hleads := hf.framed.leads s
  -- equal weight leaves no room for another mark
  have hsame : ∀ x, s.env.taintOf x = (f s).env.taintOf x :=
    Env.taintOf_eq_of_weight_le (hf.inflationary s) hweight
  have hback : (f s).env.Below s.env := fun x m hm => by rwa [hsame x]
  have hdown : (f (f s)).env.Below (f s).env :=
    hf.below_of_below (hleads.fixed hscoped).symm hleads.guards.symm hback
  have hup := hf.inflationary (f s)
  refine Env.ext_of_views ?_ fun x => OrderedSet.ext fun m => ⟨hdown x m, hup x m⟩
  -- the first execution has registered all variables that the second one needs
  obtain ⟨W, hW⟩ := hf.registers
  have hsub : (f (f s)).env.names ⊆ (f s).env.names := by
    intro x hx
    obtain hx | hx := (hW (f s) x).1 hx
    · exact hx
    · exact (hW s x).2 (.inr hx)
  have hextends := (hf.framed.leads (f s)).names
  have hlength := (List.subperm_of_subset (Env.nodup_names _) hsub).length_le
  exact (hextends.eq_of_length_le hlength).symm

/-- Once an execution changes nothing, none does. -/
theorem iterate_eq_of_fixed (hf : Accumulator o f) (hscoped : o.narrowing = .scoped) {s : Run}
    (hfixed : (f s).env = s.env) (i : Nat) : (f^[i] s).env = s.env := by
  induction i with
  | zero => rfl
  | succ i ih =>
    have hleads := hf.leads_iterate s i
    have hagrees : (f^[i] s).Agrees s := ⟨hleads.fixed hscoped, ih, hleads.guards⟩
    rw [Function.iterate_succ_apply', (hf.framed.agrees hagrees).env, hfixed]

theorem iterate_mono (hf : Accumulator o f) (s : Run) {i j : Nat} (hij : i ≤ j) : (f^[i] s).env.Below (f^[j] s).env := by
  induction j, hij using Nat.le_induction with
  | base => exact Env.Below.refl _
  | succ j _ ih =>
    rw [Function.iterate_succ_apply']
    exact ih.trans (hf.inflationary (f^[j] s))

/-- **All iterates are below what is above the start and closed under the effect.** -/
theorem iterate_below (hf : Accumulator o f) (hscoped : o.narrowing = .scoped) {s : Run} {e : Env String}
    (hstart : s.env.Below e) (hclosed : (f (s.withEnv e)).env.Below e) (i : Nat) : (f^[i] s).env.Below e := by
  induction i with
  | zero => exact hstart
  | succ i ih =>
    have hleads := hf.leads_iterate s i
    rw [Function.iterate_succ_apply']
    refine (hf.below_of_below (t := s.withEnv e) ?_ ?_ ih).trans hclosed
    · exact (hleads.fixed hscoped).symm
    · exact hleads.guards.symm

end Accumulator

/-! ## §2. Statements that accumulate. -/

namespace Node

/-- Concatenations of variables, literals, interpolated texts and reads of entry points. -/
inductive Plain : Node → Prop where
  | var (name : Option String) : Plain (.var name)
  | string (value : String) : Plain (.string value)
  | encapsed (parts : List Node) : Plain (.encapsed parts)
  | lookup (name : Option String) (offset : Option Node) : Plain (.offsetLookup name offset)
  | concat {left right : Node} : Plain left → Plain right → Plain (.bin concatOperator left right)

/-- The variable is concatenated, as such or as a part of an interpolated text. -/
inductive Keeps (x : String) : Node → Prop where
  | leaf : Keeps x (.var (some x))
  | part {parts : List Node} : .var (some x) ∈ parts → Keeps x (.encapsed parts)
  | left {left right : Node} : Keeps x left → Keeps x (.bin concatOperator left right)
  | right {left right : Node} : Keeps x right → Keeps x (.bin concatOperator left right)

/-- Assignments of plain expressions that keep the variable, and conditionals of such statements. -/
inductive Accumulates : Node → Prop where
  | assign {x : String} {e : Node} : Plain e → Keeps x e → Accumulates (.assign (.var (some x)) e)
  | cond {test : Node} {body : List Node} {alternate : Option (List Node)} :
      (∀ n ∈ body, Accumulates n) → (∀ ns ∈ alternate, ∀ n ∈ ns, Accumulates n) →
      Accumulates (.cond test body alternate)

theorem loopFreeAll_of_forall {ns : List Node} (h : ∀ n ∈ ns, n.loopFree = true) : loopFreeAll ns = true := by
  induction ns with
  | nil => rw [loopFreeAll]
  | cons n rest ih =>
    rw [loopFreeAll, h n List.mem_cons_self, ih fun m hm => h m (List.mem_cons_of_mem n hm)]
    rfl

theorem Accumulates.loopFree {n : Node} (h : n.Accumulates) : n.loopFree = true := by
  induction h with
  | assign _ _ =>
    rw [Node.loopFree]
    all_goals simp
  | @cond test body alternate _ _ hbody halternate =>
    have hfirst := loopFreeAll_of_forall hbody
    have hsecond : loopFreeAlternate alternate = true := by
      cases alternate with
      | none => rw [loopFreeAlternate]
      | some ns =>
        rw [loopFreeAlternate]
        exact loopFreeAll_of_forall (halternate ns rfl)
    rw [Node.loopFree, hfirst, hsecond]
    rfl

end Node

/-! ## §3. What accumulating does to an environment. -/

/-- The effect changes no taint and registers the variables of a fixed set. -/
structure Registers (W : String → Prop) (f : Run → Run) : Prop where
  taints : ∀ (s : Run) (y : String), (f s).env.taintOf y = s.env.taintOf y
  names : ∀ (s : Run) (y : String), y ∈ (f s).env.names ↔ y ∈ s.env.names ∨ W y

theorem Registers.of_env {f : Run → Run} (h : ∀ s, (f s).env = s.env) : Registers (fun _ => False) f where
  taints s y := by rw [h s]
  names s y := by simp [h s]

theorem Registers.andThen {V W : String → Prop} {f g : Run → Run} (hf : Registers V f) (hg : Registers W g) :
    Registers (fun y => V y ∨ W y) (g ∘ f) where
  taints s y := by rw [Function.comp_apply, hg.taints, hf.taints]
  names s y := by rw [Function.comp_apply, hg.names, hf.names, or_assoc]

theorem registers_read (x : String) : Registers (· = x) fun s => (s.read x).2 where
  taints s y := Env.taintOf_declare s.env x y
  names s y := by
    show y ∈ (s.env.declare x).names ↔ _
    rw [Env.mem_names_declare, or_comm]

theorem registers_interpolate (parts : List Node) :
    ∃ W, ∀ taint : Taint, Registers W fun s => (Run.interpolate taint parts s).2 := by
  induction parts with
  | nil => exact ⟨_, fun _ => Registers.of_env fun _ => rfl⟩
  | cons n rest ih =>
    obtain ⟨W, hW⟩ := ih
    by_cases hn : ∃ x, n = .var (some x)
    · obtain ⟨x, rfl⟩ := hn
      refine ⟨fun y => y = x ∨ W y, fun taint => ?_⟩
      have hread := registers_read x
      refine ⟨fun s y => ?_, fun s y => ?_⟩
      · show (Run.interpolate (taint ∪ s.env.taintOf x) rest (s.read x).2).2.env.taintOf y = _
        rw [(hW (taint ∪ s.env.taintOf x)).taints, hread.taints]
      · show y ∈ (Run.interpolate (taint ∪ s.env.taintOf x) rest (s.read x).2).2.env.names ↔ _
        rw [(hW (taint ∪ s.env.taintOf x)).names, hread.names, or_assoc]
    · refine ⟨W, fun taint => ?_⟩
      simp only [interpolate_cons_of_ne fun x hx => hn ⟨x, hx⟩]
      exact hW taint

section Expressions

variable (o : Options)

/-- **Plain expressions change no taint.** -/
theorem registers_evaluate {e : Node} (he : e.Plain) : ∃ W, Registers W fun s => (evaluate o e s).2 := by
  induction he with
  | var name =>
    cases name with
    | none =>
      exact ⟨_, Registers.of_env fun _ => rfl⟩
    | some x =>
      rw [evaluate_read]
      exact ⟨_, registers_read x⟩
  | string value =>
    refine ⟨_, Registers.of_env fun s => ?_⟩
    rw [evaluate_literal]
    show (s.literalTaint o value).2.env = s.env
    unfold Run.literalTaint
    split <;> rfl
  | encapsed parts =>
    obtain ⟨W, hW⟩ := registers_interpolate parts
    rw [evaluate_encapsed]
    exact ⟨W, hW ∅⟩
  | lookup name offset =>
    refine ⟨_, Registers.of_env fun s => ?_⟩
    rw [evaluate_lookup]
    show (s.lookupPatterns o name).2.env = s.env
    unfold Run.lookupPatterns Run.queryEntryPoint
    cases name with
    | none => rfl
    | some name => cases o.narrowing <;> rfl
  | concat _ _ hleft hright =>
    obtain ⟨V, hV⟩ := hleft
    obtain ⟨W, hW⟩ := hright
    rw [evaluate_concat]
    exact ⟨_, hV.andThen hW⟩

theorem mem_interpolate_of_mem {parts : List Node} {m : String} :
    ∀ {taint : Taint} {s : Run}, m ∈ taint → m ∈ (Run.interpolate taint parts s).1 := by
  induction parts with
  | nil => exact fun hm => hm
  | cons n rest ih =>
    intro taint s hm
    by_cases hn : ∃ x, n = .var (some x)
    · obtain ⟨x, rfl⟩ := hn
      exact ih (OrderedSet.mem_union.2 (.inl hm))
    · rw [interpolate_cons_of_ne fun x hx => hn ⟨x, hx⟩]
      exact ih hm

theorem mem_interpolate_of_part {parts : List Node} {x m : String} (hx : .var (some x) ∈ parts) :
    ∀ {taint : Taint} {s : Run}, m ∈ s.env.taintOf x → m ∈ (Run.interpolate taint parts s).1 := by
  induction parts with
  | nil => exact absurd hx List.not_mem_nil
  | cons n rest ih =>
    intro taint s hm
    obtain rfl | hrest := List.mem_cons.1 hx
    · show m ∈ (Run.interpolate (taint ∪ s.env.taintOf x) rest (s.read x).2).1
      exact mem_interpolate_of_mem (OrderedSet.mem_union.2 (.inr hm))
    · by_cases hn : ∃ y, n = .var (some y)
      · obtain ⟨y, rfl⟩ := hn
        show m ∈ (Run.interpolate (taint ∪ s.env.taintOf y) rest (s.read y).2).1
        refine ih hrest ?_
        rw [(registers_read y).taints]
        exact hm
      · rw [interpolate_cons_of_ne fun y hy => hn ⟨y, hy⟩]
        exact ih hrest hm

/-- **What keeps a variable has its marks.** -/
theorem mem_evaluate_of_keeps {e : Node} {x m : String} (hkeeps : e.Keeps x) :
    ∀ {s : Run}, e.Plain → m ∈ s.env.taintOf x → m ∈ (evaluate o e s).1 := by
  induction hkeeps with
  | leaf =>
    intro s _ hm
    rw [evaluate_read]
    exact hm
  | part hx =>
    intro s _ hm
    rw [evaluate_encapsed]
    exact mem_interpolate_of_part hx hm
  | left _ ih =>
    intro s hplain hm
    cases hplain with
    | concat hleft _ =>
      rw [evaluate_concat]
      exact OrderedSet.mem_union.2 (.inl (ih hleft hm))
  | right _ ih =>
    intro s hplain hm
    cases hplain with
    | concat hleft hright =>
      obtain ⟨W, hW⟩ := registers_evaluate o hleft
      rw [evaluate_concat]
      refine OrderedSet.mem_union.2 (.inr (ih hright ?_))
      rw [hW.taints s]
      exact hm

end Expressions

/-! ## §4. Statements and bodies. -/

section Bodies

variable {o : Options}

/-- Taking no mark away passes from statements to bodies. -/
theorem sequential_inflationary : Sequential fun f => ∀ s : Run, s.env.Below (f s).env where
  idle s := Env.Below.refl s.env
  andThen hf hg s := (hf s).trans (hg _)
  fallback _ _ s := Env.Below.refl s.env

/-- Registering a fixed set of variables passes from statements to bodies. -/
theorem sequential_names : Sequential fun f => ∃ W : String → Prop, ∀ (s : Run) (y : String),
    y ∈ (f s).env.names ↔ y ∈ s.env.names ∨ W y where
  idle := ⟨fun _ => False, by simp⟩
  andThen := by
    rintro f g ⟨V, hV⟩ ⟨W, hW⟩
    exact ⟨fun y => V y ∨ W y, fun s y => by rw [Function.comp_apply, hW, hV, or_assoc]⟩
  fallback _ _ := ⟨fun _ => False, fun s y => by simp [Run.fallback, Run.log]⟩

/-- No statement that accumulates takes a mark away. -/
theorem inflationary_execute {n : Node} (hn : n.Accumulates) : ∀ s : Run, s.env.Below (execute o n s).env := by
  induction hn with
  | @assign x e hplain hkeeps =>
    intro s y m hm
    rw [execute_assign]
    show m ∈ (((evaluate o e s).2.env.declare x).assign x (evaluate o e s).1).taintOf y
    rw [Env.taintOf_assign]
    split
    · rename_i hyx
      subst hyx
      exact mem_evaluate_of_keeps o hkeeps hplain hm
    · obtain ⟨W, hW⟩ := registers_evaluate o hplain
      rw [Env.taintOf_declare, hW.taints s]
      exact hm
  | @cond test body alternate _ _ hbody _ =>
    intro s y m hm
    have hthen := sequential_inflationary.body (c := .branch) hbody false (s.enter (o.guardOf test))
    rw [Run.env_enter] at hthen
    rw [execute_cond]
    -- the first branch alone keeps the marks, and the join has them
    exact Env.mem_taintOf_join.2 (.inl (hthen y m hm))

theorem names_execute {n : Node} (hn : n.Accumulates) :
    ∃ W : String → Prop, ∀ (s : Run) (y : String), y ∈ (execute o n s).env.names ↔ y ∈ s.env.names ∨ W y := by
  induction hn with
  | @assign x e hplain _ =>
    obtain ⟨W, hW⟩ := registers_evaluate o hplain
    refine ⟨fun y => W y ∨ y = x, fun s y => ?_⟩
    rw [execute_assign]
    show y ∈ (((evaluate o e s).2.env.declare x).assign x (evaluate o e s).1).names ↔ _
    rw [Env.mem_names_assign, Env.mem_names_declare, hW.names s]
    tauto
  | @cond test body alternate _ _ hbody halternate =>
    obtain ⟨V, hV⟩ := sequential_names.body (c := .branch) hbody false
    obtain ⟨W, hW⟩ := sequential_names.alternate halternate
    refine ⟨fun y => V y ∨ W y, fun s y => ?_⟩
    rw [execute_cond]
    show y ∈ (Env.join _ _).names ↔ _
    rw [Env.mem_names_join, hV, hW, Run.env_enter]
    show (y ∈ s.env.names ∨ V y) ∨ y ∈ s.env.names ∨ W y ↔ _
    tauto

/-- **A body that accumulates has the effect of an accumulator.** -/
theorem accumulator_executeBody (hscoped : o.narrowing = .scoped) {body : List Node}
    (hbody : ∀ n ∈ body, n.Accumulates) : Accumulator o (executeBody o .loop false body) where
  framed := framed_executeBody o .loop false body
  inflationary := sequential_inflationary.body (fun n hn => inflationary_execute (hbody n hn)) false
  monotone s e hbelow := by
    have hfollows := follows_executeBody (fun n hn => follows_execute hscoped n (hbody n hn).loopFree) .loop false
    exact hfollows.monotone s hbelow
  registers := sequential_names.body (fun n hn => names_execute (hbody n hn)) false

end Bodies

/-! ## §5. The least fixed point. -/

/-- **A loop that only accumulates ends in the least fixed point of its body above the start**: one more
execution of the body leaves the environment as it is, every iterate is below it, and it is below every
environment that is above the start and closed under the body. -/
theorem accumulating_loop_least_fixed_point {o : Options} (hscoped : o.narrowing = .scoped) {body : List Node}
    (hbody : ∀ n ∈ body, n.Accumulates) (test : Node) (s : Run) :
    (executeBody o .loop false body (execute o (.loop test body) s)).env = (execute o (.loop test body) s).env ∧
    (∀ n, (iterated o body n s).env.Below (execute o (.loop test body) s).env) ∧
    ∀ D : Env String, s.env.Below D → (executeBody o .loop false body (s.withEnv D)).env.Below D →
      (execute o (.loop test body) s).env.Below D := by
  have hacc := accumulator_executeBody hscoped hbody
  obtain ⟨k, hleast⟩ : ∃ k, IsLeast (stops o body s) k := ⟨_, settle_isLeast o body s⟩
  have hloop := execute_loop_of_isLeast o body s test hleast
  have hagrees : (execute o (.loop test body) s).Agrees (iterated o body k s) := by
    rw [hloop]
    exact ⟨rfl, rfl, rfl⟩
  obtain ⟨⟨hone, hweight⟩, -⟩ := hleast
  obtain ⟨j, rfl⟩ : ∃ j, k = j + 1 := ⟨k - 1, by omega⟩
  -- the last iteration added nothing, so the environment is a fixed point already
  have hfixed : (executeBody o .loop false body (iterated o body (j + 1) s)).env = (iterated o body (j + 1) s).env := by
    rw [iterated_succ] at hweight ⊢
    exact hacc.settled hscoped hweight
  refine ⟨?_, fun n => ?_, fun D hstart hclosed => ?_⟩
  · rw [(hacc.framed.agrees hagrees).env, hagrees.env]
    exact hfixed
  · rw [hagrees.env]
    obtain hle | hge := Nat.le_total n (j + 1)
    · exact hacc.iterate_mono s hle
    · -- after the last iteration nothing changes
      obtain ⟨i, rfl⟩ : ∃ i, n = i + (j + 1) := ⟨n - (j + 1), by omega⟩
      have hiterate : iterated o body (i + (j + 1)) s
          = (executeBody o .loop false body)^[i] (iterated o body (j + 1) s) :=
        Function.iterate_add_apply _ i (j + 1) s
      rw [hiterate, hacc.iterate_eq_of_fixed hscoped hfixed]
      exact Env.Below.refl _
  · rw [hagrees.env]
    exact hacc.iterate_below hscoped hstart hclosed (j + 1)

/-- Two variables that pass their marks on to each other, one of them in a branch. -/
def mutualAppend : List Node :=
  [.cond (.var (some "go"))
    [.assign (.var (some "b")) (.bin "." (.var (some "b")) (.var (some "a")))]
    (some [.assign (.var (some "b")) (.encapsed [.string "-", .var (some "b")])]),
   .assign (.var (some "a")) (.bin "." (.offsetLookup (some "_GET") none) (.bin "." (.var (some "a")) (.var (some "b"))))]

/-- An environment that is closed under that body and has marks for one variable more. -/
def closedUnderAppend : Env String :=
  .ofList [("b", .ofList ["SQL"]), ("a", .ofList ["SQL"]), ("c", .ofList ["SQL"])]

theorem mutualAppend_least_fixed_point :
    let o : Options := { blockStrategy := .all }
    let s := Run.start ⟨[.build "SQL" ["$_GET"] ["escape"] ["query"]]⟩
    let last := execute o (.loop (.var none) mutualAppend) s
    (∀ n ∈ mutualAppend, n.Accumulates) ∧ "SQL" ∈ last.env.taintOf "a" ∧ "SQL" ∈ last.env.taintOf "b" ∧
      (executeBody o .loop false mutualAppend last).env = last.env ∧
      (∀ n, (iterated o mutualAppend n s).env.Below last.env) ∧
      (executeBody o .loop false mutualAppend (s.withEnv closedUnderAppend)).env = closedUnderAppend ∧
      last.env.Below closedUnderAppend := by
  have hbody : ∀ n ∈ mutualAppend, n.Accumulates := by
    intro n hn
    obtain rfl | rfl : n = _ ∨ n = _ := by simpa [mutualAppend] using hn
    · refine .cond (fun n hn => ?_) fun ns hns n hn => ?_
      · obtain rfl := List.mem_singleton.1 hn
        exact .assign (.concat (.var _) (.var _)) (.left .leaf)
      · obtain rfl := Option.some.inj hns
        obtain rfl := List.mem_singleton.1 hn
        exact .assign (.encapsed _) (.part (by simp))
    · exact .assign (.concat (.lookup _ _) (.concat (.var _) (.var _))) (.right (.left .leaf))
  obtain ⟨hfixed, habove, hleast⟩ := accumulating_loop_least_fixed_point (o := { blockStrategy := .all }) rfl hbody
    (.var none) (Run.start ⟨[.build "SQL" ["$_GET"] ["escape"] ["query"]]⟩)
  have hclosed : (executeBody { blockStrategy := .all } .loop false mutualAppend
      ((Run.start ⟨[.build "SQL" ["$_GET"] ["escape"] ["query"]]⟩).withEnv closedUnderAppend)).env
        = closedUnderAppend := by decide +kernel
  refine ⟨hbody, by decide +kernel, by decide +kernel, hfixed, habove, hclosed, hleast closedUnderAppend ?_ ?_⟩
  · exact fun x m hm => absurd hm (OrderedSet.not_mem_emptyc m)
  · rw [hclosed]
    exact Env.Below.refl closedUnderAppend

end TaintFlow
