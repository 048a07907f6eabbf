/-
  TaintFlow.Proofs.Locality
  ─────────────────────────
  **A statement touches no variable that does not occur in it.**

  Conditionals copy and join whole environments, and loops look at the weight of all variables
  together.  Still nothing but the variables of a statement changes:

    • `Confined X` — the effect leaves every variable outside of `X` as it was, the registered
      ones with their marks and the others unregistered,
    • `confined_evaluate`, `confined_execute` — expressions and statements are confined to the
      variables that occur in them, whatever the options are,
    • `Env.weight_le_iff_of_same` — whether such an effect adds to the weight is decided by the
      variables in `X` alone.
-/
import TaintFlow.Proofs.Frame

namespace TaintFlow

/-! ## §1. Environments as mappings. -/

namespace Env

/-- What a variable is mapped to, by the two views of an environment. -/
theorem get?_eq_ite (e : Env String) (x : String) :
    e.bindings.get? x = if x ∈ e.names then some (e.taintOf x) else none := by
  have hnames : x ∈ e.names ↔ (e.bindings.get? x).isSome = true := mem_names_iff
  have htaint : e.taintOf x = (e.bindings.get? x).getD ∅ := rfl
  rw [htaint]
  cases hget : e.bindings.get? x with
  | none =>
    rw [hget] at hnames
    rw [if_neg fun hx => by simpa using hnames.1 hx]
  | some t =>
    rw [hget] at hnames
    rw [if_pos (hnames.2 rfl)]
    rfl

theorem get?_eq_of_views {a b : Env String} {x : String} (hnames : x ∈ a.names ↔ x ∈ b.names)
    (htaint : a.taintOf x = b.taintOf x) : a.bindings.get? x = b.bindings.get? x := by
  rw [get?_eq_ite, get?_eq_ite, htaint]
  simp only [hnames]

theorem mem_names_of_get?_eq {a b : Env String} {x : String} (h : a.bindings.get? x = b.bindings.get? x) :
    x ∈ a.names ↔ x ∈ b.names := by
  have hcontains : a.contains x = b.contains x := congrArg Option.isSome h
  rw [mem_names_iff, mem_names_iff, hcontains]

theorem taintOf_of_get?_eq {a b : Env String} {x : String} (h : a.bindings.get? x = b.bindings.get? x) :
    a.taintOf x = b.taintOf x :=
  congrArg (·.getD ∅) h

theorem get?_assign_of_ne (e : Env String) {x y : String} (h : y ≠ x) (t : Taint) :
    (e.assign x t).bindings.get? y = e.bindings.get? y := by
  show (e.bindings.put x t).get? y = _
  rw [OrderedMap.get?_put, if_neg h]

theorem get?_declare_of_ne (e : Env String) {x y : String} (h : y ≠ x) :
    (e.declare x).bindings.get? y = e.bindings.get? y := by
  unfold declare
  split
  · rfl
  · exact get?_assign_of_ne e h ∅

theorem get?_foldl_sanitize_of_notMem {xs : List String} (e : Env String) {y : String} (h : y ∉ xs) :
    (xs.foldl sanitize e).bindings.get? y = e.bindings.get? y := by
  refine get?_eq_of_views ?_ ?_
  · rw [mem_names_foldl_sanitize]
    simp [h]
  · rw [taintOf_foldl_sanitize, if_neg h]

/-- Where both sides of a join are the same, so is the join. -/
theorem get?_join_of_eq {a b e : Env String} {x : String} (ha : a.bindings.get? x = e.bindings.get? x)
    (hb : b.bindings.get? x = e.bindings.get? x) : (a.join b).bindings.get? x = e.bindings.get? x := by
  refine get?_eq_of_views ?_ ?_
  · rw [mem_names_join, mem_names_of_get?_eq ha, mem_names_of_get?_eq hb, or_self]
  · rw [taintOf_join, taintOf_of_get?_eq ha, taintOf_of_get?_eq hb]
    exact OrderedSet.ext fun m => by rw [OrderedSet.mem_union, or_self]

/-- **Two pairs of environments that are the same on `X`, where outside of `X` each pair does not
change**: one pair gains weight exactly if the other does. -/
theorem weight_le_iff_of_same {X : String → Prop} {a b a' b' : Env String}
    (hbefore : ∀ x, X x → a.taintOf x = a'.taintOf x) (hafter : ∀ x, X x → b.taintOf x = b'.taintOf x)
    (houtside : ∀ x, ¬ X x → b.taintOf x = a.taintOf x)
    (houtside' : ∀ x, ¬ X x → b'.taintOf x = a'.taintOf x) :
    b.weight ≤ a.weight ↔ b'.weight ≤ a'.weight := by
  classical
  -- all four weights are sums over one set, which splits into the part in `X` and the rest
  let S := a.names.toFinset ∪ b.names.toFinset ∪ a'.names.toFinset ∪ b'.names.toFinset
  have hsplit : ∀ e : Env String, (∀ x ∈ e.names, x ∈ S) →
      e.weight = ∑ x ∈ S with X x, (e.taintOf x).size + ∑ x ∈ S with ¬ X x, (e.taintOf x).size := by
    intro e he
    rw [weight_eq_sum he, Finset.sum_filter_add_sum_filter_not]
  have hsame : ∀ (Y : String → Prop) [DecidablePred Y] (e e' : Env String),
      (∀ x, Y x → e.taintOf x = e'.taintOf x) →
        ∑ x ∈ S with Y x, (e.taintOf x).size = ∑ x ∈ S with Y x, (e'.taintOf x).size := by
    intro Y _ e e' h
    refine Finset.sum_congr rfl fun x hx => ?_
    rw [h x (Finset.mem_filter.1 hx).2]
  rw [hsplit a fun x hx => by simp [S, hx], hsplit b fun x hx => by simp [S, hx],
    hsplit a' fun x hx => by simp [S, hx], hsplit b' fun x hx => by simp [S, hx],
    hsame X a a' hbefore, hsame X b b' hafter, hsame (fun x => ¬ X x) b a houtside,
    hsame (fun x => ¬ X x) b' a' houtside']
  omega

end Env

/-! ## §2. Confined effects. -/

/-- **The effect leaves every variable outside of `X` as it was.** -/
def Confined (X : String → Prop) (f : Run → Run) : Prop :=
  ∀ (s : Run) (x : String), ¬ X x → (f s).env.bindings.get? x = s.env.bindings.get? x

namespace Confined

variable {X : String → Prop} {f g : Run → Run}

theorem of_env (h : ∀ s, (f s).env = s.env) : Confined X f := fun s x _ => by rw [h s]

theorem andThen (hf : Confined X f) (hg : Confined X g) : Confined X (g ∘ f) := by
  intro s x hx
  exact (hg (f s) x hx).trans (hf s x hx)

theorem foldl {α : Type} {f : Run → α → Run} {l : List α} (h : ∀ a ∈ l, Confined X fun s => f s a) :
    Confined X fun s => l.foldl f s := by
  induction l with
  | nil => exact of_env fun _ => rfl
  | cons a l ih => exact andThen (h a List.mem_cons_self) (ih fun b hb => h b (List.mem_cons_of_mem a hb))

/-- Passes from statements to bodies. -/
theorem sequential (X : String → Prop) : Sequential (Confined X) where
  idle := of_env fun _ => rfl
  andThen := andThen
  fallback _ _ := of_env fun _ => rfl

/-- Outside of `X` both branches leave the environment before the conditional, and so does their join. -/
theorem branch (guard : Option String) (hf : Confined X f) (hg : Confined X g) : Confined X (branch guard f g) := by
  intro s x hx
  have hthen := hf (s.enter guard) x hx
  rw [Run.env_enter] at hthen
  have helse := hg ((f (s.enter guard)).withEnv s.env) x hx
  exact Env.get?_join_of_eq hthen helse

theorem iterate (hf : Confined X f) (k : Nat) : Confined X f^[k] := by
  induction k with
  | zero => exact of_env fun _ => rfl
  | succ k ih => exact andThen hf ih

end Confined

/-! ## §3. Evaluation. -/

theorem env_lookupPatterns (s : Run) (o : Options) (name : Option String) :
    (s.lookupPatterns o name).2.env = s.env := by
  cases name with
  | none => rfl
  | some name =>
    unfold Run.lookupPatterns Run.queryEntryPoint
    cases o.narrowing <;> rfl

theorem env_literalTaint (s : Run) (o : Options) (value : String) : (s.literalTaint o value).2.env = s.env := by
  unfold Run.literalTaint
  split <;> rfl

theorem env_namedArguments (arguments : List Node) (s : Run) : (Run.namedArguments arguments s).2.env = s.env := by
  induction arguments generalizing s with
  | nil => rfl
  | cons n rest ih =>
    match n with
    | .var (some x) => exact ih s
    | .var none => exact ih (s.fallback "variable_without_name" "")
    | .unknown .. | .string _ | .offsetLookup .. | .bin .. | .call .. | .encapsed _ | .assign .. | .echo _
    | .cond .. | .loop .. | .block _ => exact ih s

section Evaluation

variable {X : String → Prop}

theorem confined_read {x : String} (hx : X x) : Confined X fun s => (s.read x).2 := by
  intro s y hy
  have hne : y ≠ x := fun h => hy (h ▸ hx)
  exact Env.get?_declare_of_ne s.env hne

theorem confined_interpolate {parts : List Node} (h : ∀ x, .var (some x) ∈ parts → X x) :
    ∀ (taint : Taint), Confined X fun s => (Run.interpolate taint parts s).2 := by
  induction parts with
  | nil => exact fun _ => Confined.of_env fun _ => rfl
  | cons n rest ih =>
    intro taint s y hy
    have ih := ih fun x hx => h x (List.mem_cons_of_mem n hx)
    by_cases hn : ∃ x, n = .var (some x)
    · obtain ⟨x, rfl⟩ := hn
      have hread := confined_read (h x List.mem_cons_self) s y hy
      exact (ih (taint ∪ s.env.taintOf x) (s.read x).2 y hy).trans hread
    · show (Run.interpolate taint (n :: rest) s).2.env.bindings.get? y = _
      rw [interpolate_cons_of_ne fun x hx => hn ⟨x, hx⟩]
      exact ih taint s y hy

theorem confined_checkArgument {x : String} (hx : X x) (function : String) (p : Pattern) :
    Confined X fun s => Run.checkArgument function p s x := by
  intro s y hy
  have henv : (Run.checkArgument function p s x).env = (s.read x).2.env := by
    unfold Run.checkArgument
    simp only
    split <;> rfl
  show (Run.checkArgument function p s x).env.bindings.get? y = _
  rw [henv]
  exact confined_read hx s y hy

theorem confined_applySanitizer {names : List String} (h : ∀ x ∈ names, X x) (function : String) :
    Confined X fun s => s.applySanitizer function names := by
  intro s y hy
  exact Env.get?_foldl_sanitize_of_notMem s.env fun hmem => hy (h y hmem)

theorem confined_call {arguments : List Node} (h : ∀ x, .var (some x) ∈ arguments → X x) (function : String) :
    Confined X fun s => s.call function arguments := by
  intro s y hy
  show (s.call function arguments).env.bindings.get? y = _
  by_cases hnone : Catalog.withSink function s.active = [] ∧ Catalog.withSanitizer function s.active = []
  · rw [call_of_none hnone]
  · have hnames : ∀ x ∈ (Run.namedArguments arguments s).1, X x := fun x hx => h x (mem_namedArguments.1 hx)
    have hsinks : Confined X fun t => (Catalog.withSink function s.active).foldl
        (Run.checkSink function (Run.namedArguments arguments s).1) t := by
      refine Confined.foldl fun p _ => Confined.foldl fun x hx => ?_
      exact confined_checkArgument (hnames x hx) function p
    have hchecked := hsinks (Run.namedArguments arguments s).2 y hy
    rw [env_namedArguments] at hchecked
    rw [call_of_some hnone]
    split
    · exact hchecked
    · exact (confined_applySanitizer hnames function _ y hy).trans hchecked

/-- **An expression is confined to the variables that occur in it.** -/
theorem confined_evaluate (o : Options) {n : Node} (h : ∀ x, Node.Occurs (.var (some x)) n → X x) :
    Confined X fun s => (evaluate o n s).2 := by
  induction n using expression_induction o with
  | lookup name offset =>
    rw [evaluate_lookup]
    exact Confined.of_env fun s => env_lookupPatterns s o name
  | concat left right hleft hright =>
    have hl := hleft fun x hx => h x (.inside (by simp [Node.children]) hx)
    have hr := hright fun x hx => h x (.inside (by simp [Node.children]) hx)
    rw [evaluate_concat]
    exact hl.andThen hr
  | literal value =>
    rw [evaluate_literal]
    exact Confined.of_env fun s => env_literalTaint s o value
  | encapsed parts =>
    rw [evaluate_encapsed]
    exact confined_interpolate (fun x hx => h x (.inside hx .root)) ∅
  | read x =>
    rw [evaluate_read]
    exact confined_read (h x .root)
  | pass function argument rest hpass ih =>
    rw [evaluate_pass hpass]
    exact ih fun x hx => h x (.inside (by simp [Node.children]) hx)
  | call function arguments hpass =>
    rw [evaluate_call hpass]
    exact confined_call (fun x hx => h x (.inside hx .root)) function
  | idle n heq =>
    exact Confined.of_env fun s => by rw [heq s]
  | inert n reason detail heq =>
    exact Confined.of_env fun s => by rw [heq s]; rfl

end Evaluation

/-! ## §4. Execution. -/

section Execution

variable {X : String → Prop} (o : Options)

theorem confined_assign {target : Node} (h : ∀ x, Node.Occurs (.var (some x)) target → X x) (taint : Taint) :
    Confined X fun s => s.assign target taint := by
  by_cases htarget : ∃ x, target = .var (some x)
  · obtain ⟨x, rfl⟩ := htarget
    intro s y hy
    have hne : y ≠ x := fun heq => hy (heq ▸ h x .root)
    show ((s.env.declare x).assign x taint).bindings.get? y = _
    rw [Env.get?_assign_of_ne _ hne, Env.get?_declare_of_ne _ hne]
  · refine Confined.of_env fun s => ?_
    rw [Run.assign]
    · rfl
    · exact fun x hx => htarget ⟨x, hx⟩

theorem env_echoLookup (s : Run) (name : Option String) : (s.echoLookup o name).env = s.env := by
  have hfold : ∀ (patterns : List Pattern) (t : Run), (patterns.foldl (fun s p =>
      if o.echoSink ∈ p.sinks then
        { s with verdict := s.verdict.markVulnerable p.name }.log (.taintedOutput (name.getD "") p.name)
      else s) t).env = t.env := by
    intro patterns
    induction patterns with
    | nil => exact fun _ => rfl
    | cons p rest ih =>
      intro t
      rw [List.foldl_cons, ih]
      split <;> rfl
  unfold Run.echoLookup
  simp only
  rw [hfold, env_lookupPatterns]

theorem env_echo (arguments : List Node) (s : Run) : (Run.echo o arguments s).env = s.env := by
  induction arguments generalizing s with
  | nil => rfl
  | cons n rest ih =>
    match n with
    | .offsetLookup name _ => exact (ih (s.echoLookup o name)).trans (env_echoLookup o s name)
    | .unknown .. | .var _ | .string _ | .bin .. | .call .. | .encapsed _ | .assign .. | .echo _
    | .cond .. | .loop .. | .block _ => exact ih s

/-- **A statement is confined to the variables that occur in it.** -/
theorem confined_execute {n : Node} (h : ∀ x, Node.Occurs (.var (some x)) n → X x) : Confined X (execute o n) := by
  induction n using statement_induction o with
  | assign left right =>
    rw [execute_assign]
    have hright := confined_evaluate o (n := right) fun x hx => h x (.inside (by simp [Node.children]) hx)
    have hleft := @confined_assign X left fun x hx => h x (.inside (by simp [Node.children]) hx)
    intro s y hy
    exact (hleft (evaluate o right s).1 (evaluate o right s).2 y hy).trans (hright s y hy)
  | echo arguments =>
    rw [execute_echo]
    exact Confined.of_env (env_echo o arguments)
  | cond test body alternate hbody halternate =>
    rw [execute_cond]
    refine Confined.branch _ ((Confined.sequential X).body (fun n hn => ?_) false)
      ((Confined.sequential X).alternate fun ns hns n hn => ?_)
    · exact hbody n hn fun x hx => h x (.inside (by simp [Node.children, hn]) hx)
    · exact halternate ns hns n hn fun x hx => h x (.inside (by simp [Node.children, Option.mem_def.1 hns, hn]) hx)
  | loop test body hbody =>
    have hiteration : Confined X (executeBody o .loop false body) := by
      refine (Confined.sequential X).body (fun n hn => ?_) false
      exact hbody n hn fun x hx => h x (.inside (by simp [Node.children, hn]) hx)
    intro s y hy
    rw [execute_loop]
    show (settle (executeBody o .loop false body) (loopLimit body s) s).1.env.bindings.get? y = _
    rw [settle_eq_iterate]
    exact hiteration.iterate _ s y hy
  | block children hchildren =>
    rw [execute_block]
    exact (Confined.sequential X).all fun n hn => hchildren n hn fun x hx => h x (.inside hn hx)
  | inert n reason detail heq =>
    exact Confined.of_env fun s => by rw [heq s]; rfl

theorem confined_executeBody {ns : List Node} (h : ∀ x, Node.OccursIn (.var (some x)) ns → X x) (c : Context) :
    Confined X (executeBody o c false ns) :=
  (Confined.sequential X).body (fun n hn => confined_execute o fun x hx => h x ⟨n, hn, hx⟩) false

end Execution

end TaintFlow
