/-
  TaintFlow.Proofs.Statement
  ──────────────────────────
  **The shapes of statements and expressions.**

  Every proof about executions follows the same few shapes:

    • `execute_cond`, `execute_loop` — a conditional and a loop as functions of the effects of
      their bodies (`branch`, `repeatBody`),
    • `statement_induction`, `expression_induction` — induction with one case for each way in
      which a statement is executed or an expression is evaluated,
    • `Sequential` — kinds of effects that pass from statements to bodies,
    • `SequentialPair` — the same for two executions of statements that correspond one by one,
    • `settle_eq_iterate`, `settle_grows`, `settle_stops` — what repeating a body amounts to.
-/
import Mathlib.Data.List.Forall2
import Mathlib.Logic.Function.Iterate
import TaintFlow.Analysis.Analyze
import TaintFlow.Proofs.Tree

namespace TaintFlow

/-! ## §1. Conditionals and loops. -/

/-- The run with another environment. -/
def Run.withEnv (s : Run) (e : Env String) : Run := { s with env := e }

/-- The effect of a conditional whose branches have the given effects. -/
def branch (guard : Option String) (first second : Run → Run) (s : Run) : Run :=
  let afterThen := first (s.enter guard)
  let afterElse := second (afterThen.withEnv s.env)
  (afterElse.leave guard).withEnv (afterThen.env.join afterElse.env)

theorem execute_cond (o : Options) (test : Node) (body : List Node) (alternate : Option (List Node)) :
    execute o (.cond test body alternate)
      = branch (o.guardOf test) (executeBody o .branch false body) (executeAlternate o alternate) := rfl

/-- The effect of a loop whose body has the given effect and is executed at most `limit` times. -/
def repeatBody (effect : Run → Run) (limit : Run → Nat) (s : Run) : Run :=
  (settle effect (limit s) s).1.finishLoop (settle effect (limit s) s).2

theorem execute_loop (o : Options) (test : Node) (body : List Node) :
    execute o (.loop test body) = repeatBody (executeBody o .loop false body) (loopLimit body) := rfl

/-! ## §2. Induction. -/

/-- **Induction on statements**, one case for each way in which one is executed. -/
theorem statement_induction (o : Options) {motive : Node → Prop}
    (assign : ∀ left right, motive (.assign left right))
    (echo : ∀ arguments, motive (.echo arguments))
    (cond : ∀ test body alternate, (∀ n ∈ body, motive n) → (∀ ns ∈ alternate, ∀ n ∈ ns, motive n) →
      motive (.cond test body alternate))
    (loop : ∀ test body, (∀ n ∈ body, motive n) → motive (.loop test body))
    (block : ∀ children, (∀ n ∈ children, motive n) → motive (.block children))
    (inert : ∀ n reason detail, (∀ s, execute o n s = s.fallback reason detail) → motive n)
    (n : Node) : motive n := by
  induction n using Node.induction with
  | step n ih =>
    cases n with
    | assign left right => exact assign left right
    | echo arguments => exact echo arguments
    | cond test body alternate =>
      refine cond test body alternate (fun n hn => ih n ?_) fun ns hns n hn => ih n ?_
      · simp [Node.children, hn]
      · simp [Node.children, Option.mem_def.1 hns, hn]
    | loop test body => exact loop test body fun n hn => ih n (by simp [Node.children, hn])
    | block children => exact block children fun n hn => ih n hn
    | unknown rawKind reason => exact inert _ _ _ fun _ => rfl
    | var | string | offsetLookup | bin | call | encapsed =>
      exact inert _ "ignored_statement" (Node.kindName _) fun _ => rfl

/-- **Induction on expressions**, one case for each way in which one is evaluated. -/
theorem expression_induction (o : Options) {motive : Node → Prop}
    (lookup : ∀ name offset, motive (.offsetLookup name offset))
    (concat : ∀ left right, motive left → motive right → motive (.bin concatOperator left right))
    (literal : ∀ value, motive (.string value))
    (encapsed : ∀ parts, motive (.encapsed parts))
    (read : ∀ x, motive (.var (some x)))
    (pass : ∀ function argument rest, o.passesThrough function = true → motive argument →
      motive (.call (some function) (argument :: rest)))
    (call : ∀ function arguments, o.passesThrough function = false →
      motive (.call (some function) arguments))
    (idle : ∀ n, (∀ s, evaluate o n s = (∅, s)) → motive n)
    (inert : ∀ n reason detail, (∀ s, evaluate o n s = (∅, s.fallback reason detail)) → motive n)
    (n : Node) : motive n := by
  induction n using Node.induction with
  | step n ih =>
    cases n with
    | offsetLookup name offset => exact lookup name offset
    | string value => exact literal value
    | encapsed parts => exact encapsed parts
    | bin operator left right =>
      by_cases h : operator = concatOperator
      · subst h
        exact concat left right (ih left (by simp [Node.children])) (ih right (by simp [Node.children]))
      · exact idle _ fun _ => if_neg h
    | var name =>
      cases name with
      | none => exact inert _ _ _ fun _ => rfl
      | some x => exact read x
    | call name arguments =>
      cases name with
      | none => exact inert _ _ _ fun _ => rfl
      | some function =>
        cases h : o.passesThrough function with
        | false => exact call function arguments h
        | true =>
          cases arguments with
          | nil => exact idle _ fun _ => if_pos h
          | cons argument rest => exact pass function argument rest h (ih argument (by simp [Node.children]))
    | unknown | assign | echo | cond | loop | block =>
      exact inert _ "unknown_expression" (Node.kindName _) fun _ => rfl

theorem evaluate_lookup (o : Options) (name : Option String) (offset : Option Node) :
    evaluate o (.offsetLookup name offset) = fun s =>
      (OrderedSet.ofList ((s.lookupPatterns o name).1.map (·.name)), (s.lookupPatterns o name).2) := rfl

theorem evaluate_concat (o : Options) (left right : Node) :
    evaluate o (.bin concatOperator left right) = fun s =>
      ((evaluate o left s).1 ∪ (evaluate o right (evaluate o left s).2).1,
        (evaluate o right (evaluate o left s).2).2) :=
  funext fun _ => if_pos rfl

theorem evaluate_literal (o : Options) (value : String) :
    evaluate o (.string value) = fun s => s.literalTaint o value := rfl

theorem evaluate_encapsed (o : Options) (parts : List Node) :
    evaluate o (.encapsed parts) = fun s => Run.interpolate ∅ parts s := rfl

theorem evaluate_read (o : Options) (x : String) : evaluate o (.var (some x)) = fun s => s.read x := rfl

theorem evaluate_pass {o : Options} {function : String} (h : o.passesThrough function = true)
    (argument : Node) (rest : List Node) :
    evaluate o (.call (some function) (argument :: rest)) = evaluate o argument :=
  funext fun _ => if_pos h

theorem evaluate_call {o : Options} {function : String} (h : o.passesThrough function = false)
    (arguments : List Node) :
    evaluate o (.call (some function) arguments) = fun s => (∅, s.call function arguments) :=
  funext fun _ => if_neg (by simp [h])

theorem execute_assign (o : Options) (left right : Node) :
    execute o (.assign left right) = fun s => (evaluate o right s).2.assign left (evaluate o right s).1 := rfl

theorem execute_echo (o : Options) (arguments : List Node) :
    execute o (.echo arguments) = Run.echo o arguments := rfl

theorem execute_block (o : Options) (children : List Node) :
    execute o (.block children) = executeAll o children := rfl

/-- The parts of an interpolated text that are no named variables are passed over. -/
theorem interpolate_cons_of_ne {n : Node} (h : ∀ x, n ≠ .var (some x)) (taint : Taint) (rest : List Node) (s : Run) :
    Run.interpolate taint (n :: rest) s = Run.interpolate taint rest s := by
  rw [Run.interpolate]
  exact h

/-- A function that is neither a sink nor a sanitizer has no effect. -/
theorem call_of_none {s : Run} {function : String}
    (h : Catalog.withSink function s.active = [] ∧ Catalog.withSanitizer function s.active = [])
    (arguments : List Node) : s.call function arguments = s := by
  unfold Run.call
  exact if_pos h

/-- The named arguments reach the sinks first, and then they are cleaned. -/
theorem call_of_some {s : Run} {function : String}
    (h : ¬ (Catalog.withSink function s.active = [] ∧ Catalog.withSanitizer function s.active = []))
    (arguments : List Node) :
    s.call function arguments
      = if Catalog.withSanitizer function s.active = [] ∨ (Run.namedArguments arguments s).1 = [] then
          (Catalog.withSink function s.active).foldl
            (Run.checkSink function (Run.namedArguments arguments s).1) (Run.namedArguments arguments s).2
        else
          ((Catalog.withSink function s.active).foldl
            (Run.checkSink function (Run.namedArguments arguments s).1)
            (Run.namedArguments arguments s).2).applySanitizer function (Run.namedArguments arguments s).1 := by
  unfold Run.call
  exact if_neg h

theorem mem_namedArguments {arguments : List Node} {x : String} {s : Run} :
    x ∈ (Run.namedArguments arguments s).1 ↔ .var (some x) ∈ arguments := by
  induction arguments generalizing s with
  | nil => simp [Run.namedArguments]
  | cons n rest ih =>
    match n with
    | .var (some y) => simp [Run.namedArguments, ih]
    | .var none => simp [Run.namedArguments, ih]
    | .unknown .. | .string _ | .offsetLookup .. | .bin .. | .call .. | .encapsed _ | .assign .. | .echo _
    | .cond .. | .loop .. | .block _ => simp [Run.namedArguments, ih]

/-! ## §3. Bodies. -/

theorem executeAll_nil (o : Options) : executeAll o [] = id := rfl

theorem executeAll_cons (o : Options) (n : Node) (rest : List Node) :
    executeAll o (n :: rest) = executeAll o rest ∘ execute o n := rfl

theorem executeBody_nil (o : Options) (c : Context) (started : Bool) : executeBody o c started [] = id := rfl

theorem executeBody_cons_of_executes {o : Options} {c : Context} {started : Bool} {n : Node}
    (h : o.executes c started n = true) (rest : List Node) :
    executeBody o c started (n :: rest) = executeBody o c true rest ∘ execute o n :=
  funext fun _ => if_pos h

theorem executeBody_cons_of_skips {o : Options} {c : Context} {started : Bool} {n : Node}
    (h : o.executes c started n = false) (rest : List Node) :
    executeBody o c started (n :: rest)
      = executeBody o c started rest ∘ fun s => s.fallback c.skipReason n.kindName :=
  funext fun _ => if_neg (by simp [h])

theorem executeAlternate_none (o : Options) : executeAlternate o none = id := rfl

theorem executeAlternate_some (o : Options) (ns : List Node) :
    executeAlternate o (some ns) = executeBody o .branch false ns := rfl

/-- A kind of effect that doing nothing has, giving up on a detail has, and one effect after
another has if both have it. -/
structure Sequential (E : (Run → Run) → Prop) : Prop where
  idle : E id
  andThen {f g : Run → Run} : E f → E g → E (g ∘ f)
  fallback (reason detail : String) : E fun s => s.fallback reason detail

namespace Sequential

variable {E : (Run → Run) → Prop} {o : Options}

theorem all (hE : Sequential E) {ns : List Node} (h : ∀ n ∈ ns, E (execute o n)) :
    E (executeAll o ns) := by
  induction ns with
  | nil =>
    rw [executeAll_nil]
    exact hE.idle
  | cons n rest ih =>
    rw [executeAll_cons]
    exact hE.andThen (h n List.mem_cons_self) (ih fun m hm => h m (List.mem_cons_of_mem n hm))

theorem body (hE : Sequential E) {c : Context} {ns : List Node} (h : ∀ n ∈ ns, E (execute o n))
    (started : Bool) : E (executeBody o c started ns) := by
  induction ns generalizing started with
  | nil =>
    rw [executeBody_nil]
    exact hE.idle
  | cons n rest ih =>
    have hrest := ih fun m hm => h m (List.mem_cons_of_mem n hm)
    cases hn : o.executes c started n with
    | true =>
      rw [executeBody_cons_of_executes hn]
      exact hE.andThen (h n List.mem_cons_self) (hrest true)
    | false =>
      rw [executeBody_cons_of_skips hn]
      exact hE.andThen (hE.fallback _ _) (hrest started)

theorem alternate (hE : Sequential E) {alternate : Option (List Node)}
    (h : ∀ ns ∈ alternate, ∀ n ∈ ns, E (execute o n)) : E (executeAlternate o alternate) := by
  cases alternate with
  | none =>
    rw [executeAlternate_none]
    exact hE.idle
  | some ns =>
    rw [executeAlternate_some]
    exact hE.body (h ns rfl) false

end Sequential

/-! ## §4. Corresponding bodies. -/

/-- Nodes of one kind: both are executed in a body or both are skipped, and they are reported by one name. -/
structure Node.SameKind (n m : Node) : Prop where
  kindName : m.kindName = n.kindName
  isBodyStatement : m.isBodyStatement = n.isBodyStatement

theorem Node.SameKind.executes {n m : Node} (h : n.SameKind m) (o : Options) (c : Context) (started : Bool) :
    o.executes c started m = o.executes c started n := by
  unfold Options.executes
  rw [h.isBodyStatement]

/-- A relation between two effects that doing nothing has with itself, giving up on a detail has with itself, and
one effect after another has with such a pair if the parts have it. -/
structure SequentialPair (E : (Run → Run) → (Run → Run) → Prop) : Prop where
  idle : E id id
  andThen {f g f' g' : Run → Run} : E f g → E f' g' → E (f' ∘ f) (g' ∘ g)
  fallback (reason detail : String) : E (fun s => s.fallback reason detail) fun s => s.fallback reason detail

namespace SequentialPair

variable {E : (Run → Run) → (Run → Run) → Prop} {o : Options}

theorem all (hE : SequentialPair E) {ns ms : List Node}
    (h : List.Forall₂ (fun n m => E (execute o n) (execute o m)) ns ms) : E (executeAll o ns) (executeAll o ms) := by
  induction h with
  | nil =>
    rw [executeAll_nil]
    exact hE.idle
  | cons hn _ ih =>
    rw [executeAll_cons, executeAll_cons]
    exact hE.andThen hn ih

theorem body (hE : SequentialPair E) {c : Context} {ns ms : List Node}
    (h : List.Forall₂ (fun n m => n.SameKind m ∧ E (execute o n) (execute o m)) ns ms) :
    ∀ started : Bool, E (executeBody o c started ns) (executeBody o c started ms) := by
  induction h with
  | nil =>
    intro started
    rw [executeBody_nil]
    exact hE.idle
  | @cons n m ns ms hn _ ih =>
    intro started
    have hsame := hn.1.executes o c started
    cases hexecutes : o.executes c started n with
    | true =>
      rw [executeBody_cons_of_executes hexecutes, executeBody_cons_of_executes (hsame.trans hexecutes)]
      exact hE.andThen hn.2 (ih true)
    | false =>
      rw [executeBody_cons_of_skips hexecutes, executeBody_cons_of_skips (hsame.trans hexecutes), hn.1.kindName]
      exact hE.andThen (hE.fallback _ _) (ih started)

end SequentialPair

theorem condDepthAll_congr {o : Options} {ns ms : List Node}
    (h : List.Forall₂ (fun n m => condDepth o m = condDepth o n) ns ms) : condDepthAll o ms = condDepthAll o ns := by
  induction h with
  | nil => rfl
  | cons hn _ ih => rw [condDepthAll, condDepthAll, hn, ih]

theorem condDepthOf_congr {o : Options} {c : Context} {ns ms : List Node}
    (h : List.Forall₂ (fun n m => n.SameKind m ∧ condDepth o m = condDepth o n) ns ms) :
    ∀ started : Bool, condDepthOf o c started ms = condDepthOf o c started ns := by
  induction h with
  | nil => exact fun _ => rfl
  | cons hn _ ih =>
    intro started
    rw [condDepthOf, condDepthOf, hn.1.executes, hn.2, ih, ih]

/-! ## §5. Repetition. -/

/-- Repeating a body ends after as many executions as are counted. -/
theorem settle_eq_iterate (body : Run → Run) (limit : Nat) (s : Run) :
    (settle body limit s).1 = body^[(settle body limit s).2] s := by
  induction limit generalizing s with
  | zero => rfl
  | succ limit ih =>
    rw [settle]
    split
    · exact ih (body s)
    · rfl

/-- Each execution but the last adds to the weight. -/
theorem settle_grows (body : Run → Run) (limit : Nat) (s : Run) {i : Nat}
    (hi : i + 1 < (settle body limit s).2) :
    (body^[i] s).env.weight < (body^[i + 1] s).env.weight := by
  induction limit generalizing s i with
  | zero => simp [settle] at hi
  | succ limit ih =>
    rw [settle] at hi
    split at hi
    · rename_i hgrows
      cases i with
      | zero => exact hgrows
      | succ i => exact ih (body s) (Nat.lt_of_succ_lt_succ hi)
    · simp at hi

/-- The last execution does not add to the weight, unless the limit is reached. -/
theorem settle_stops (body : Run → Run) (limit : Nat) (s : Run) :
    (∃ k, (settle body limit s).2 = k + 1 ∧ (body^[k + 1] s).env.weight ≤ (body^[k] s).env.weight) ∨
      (settle body limit s).2 = limit ∧ ∀ i < limit, (body^[i] s).env.weight < (body^[i + 1] s).env.weight := by
  induction limit generalizing s with
  | zero => exact .inr ⟨rfl, by simp⟩
  | succ limit ih =>
    rw [settle]
    split
    · rename_i hgrows
      rcases ih (body s) with ⟨k, hk, hle⟩ | ⟨hlimit, hall⟩
      · refine .inl ⟨k + 1, ?_, hle⟩
        show (settle body limit (body s)).2 + 1 = _
        rw [hk]
      · refine .inr ⟨?_, fun i hi => ?_⟩
        · show (settle body limit (body s)).2 + 1 = _
          rw [hlimit]
        · cases i with
          | zero => exact hgrows
          | succ i => exact hall i (Nat.lt_of_succ_lt_succ hi)
    · rename_i hstays
      exact .inl ⟨0, rfl, Nat.le_of_not_lt hstays⟩

end TaintFlow
