/-
  TaintFlow.Proofs.Clearing
  ─────────────────────────
  **A variable gets marks by assignments to it, and in no other way.**

  Everything else that touches a variable reads it or cleans it.  A branch that cleans it and one
  that does not meet in a join, and a loop goes through its body again and again, but between
  what the variable carried before and nothing at all there is no third outcome:

    • `Node.targets` — the variables that a statement assigns,
    • `OnlyClears x` — the effect leaves the taint of `x` as it was, or leaves `x` clean,
    • `onlyClears_evaluate`, `onlyClears_execute` — expressions do this to every variable, and
      statements to every variable that they do not assign,
    • `taint_enters_by_assignment` — so do statements in a row, and what has been cleaned stays clean.
-/
import TaintFlow.Proofs.Calls

namespace TaintFlow

/-! ## §1. Assigned variables. -/

mutual

/-- The variables that a statement assigns, its branches, loops and blocks included.  An assignment that stands in the
place of an expression is never executed and does not count. -/
def Node.targets : Node → List String
  | .assign (.var (some x)) _ => [x]
  | .cond _ body none => Node.targetsOf body
  | .cond _ body (some alternate) => Node.targetsOf body ++ Node.targetsOf alternate
  | .loop _ body => Node.targetsOf body
  | .block children => Node.targetsOf children
  | _ => []

/-- The variables that statements in a row assign. -/
def Node.targetsOf : List Node → List String
  | [] => []
  | n :: rest => n.targets ++ Node.targetsOf rest

end

theorem Node.mem_targetsOf {x : String} {ns : List Node} : x ∈ Node.targetsOf ns ↔ ∃ n ∈ ns, x ∈ n.targets := by
  induction ns with
  | nil => simp [Node.targetsOf]
  | cons n rest ih => simp [Node.targetsOf, ih]

/-! ## §2. Effects that only clear. -/

/-- **The effect leaves the taint of the variable as it was, or leaves the variable clean.** -/
def OnlyClears (x : String) (f : Run → Run) : Prop :=
  ∀ s : Run, (f s).env.taintOf x = s.env.taintOf x ∨ (f s).env.taintOf x = ∅

namespace OnlyClears

variable {x : String} {f g : Run → Run}

theorem of_keeps (h : ∀ s : Run, (f s).env.taintOf x = s.env.taintOf x) : OnlyClears x f := fun s => .inl (h s)

theorem of_env (h : ∀ s : Run, (f s).env = s.env) : OnlyClears x f := of_keeps fun s => by rw [h s]

theorem andThen (hf : OnlyClears x f) (hg : OnlyClears x g) : OnlyClears x (g ∘ f) := by
  intro s
  rcases hg (f s) with hkept | hclear
  · rw [Function.comp_apply, hkept]
    exact hf s
  · exact .inr hclear

/-- What is clean stays clean. -/
theorem clean (hf : OnlyClears x f) {s : Run} (hs : s.env.taintOf x = ∅) : (f s).env.taintOf x = ∅ := by
  rcases hf s with hkept | hclear
  · rw [hkept, hs]
  · exact hclear

/-- Passes from statements to bodies. -/
theorem sequential (x : String) : Sequential (OnlyClears x) where
  idle := of_env fun _ => rfl
  andThen := andThen
  fallback _ _ := of_env fun _ => rfl

/-- Both branches start from one taint, so the join of what they leave is that taint or nothing. -/
theorem branch (guard : Option String) (hf : OnlyClears x f) (hg : OnlyClears x g) :
    OnlyClears x (branch guard f g) := by
  intro s
  have hthen := hf (s.enter guard)
  rw [Run.env_enter] at hthen
  have helse := hg ((f (s.enter guard)).withEnv s.env)
  show (Env.join _ _).taintOf x = _ ∨ (Env.join _ _).taintOf x = ∅
  rw [Env.taintOf_join]
  rcases hthen with hthen | hthen <;> rcases helse with helse | helse <;> rw [hthen, helse]
  · exact .inl (OrderedSet.union_self _)
  · exact .inl (OrderedSet.union_empty _)
  · exact .inl (OrderedSet.empty_union _)
  · exact .inr (OrderedSet.union_self _)

theorem iterate (hf : OnlyClears x f) (k : Nat) : OnlyClears x f^[k] := by
  induction k with
  | zero => exact of_env fun _ => rfl
  | succ k ih => exact andThen hf ih

end OnlyClears

/-! ## §3. Expressions. -/

theorem taintOf_interpolate (parts : List Node) (x : String) : ∀ (taint : Taint) (s : Run),
    (Run.interpolate taint parts s).2.env.taintOf x = s.env.taintOf x := by
  induction parts with
  | nil => exact fun _ _ => rfl
  | cons n rest ih =>
    intro taint s
    by_cases hn : ∃ y, n = .var (some y)
    · obtain ⟨y, rfl⟩ := hn
      exact (ih (taint ∪ s.env.taintOf y) (s.read y).2).trans (s.env.taintOf_declare y x)
    · rw [interpolate_cons_of_ne fun y hy => hn ⟨y, hy⟩]
      exact ih taint s

/-- **Expressions**: a variable is read, or it is an argument of a sanitizer. -/
theorem onlyClears_evaluate (o : Options) (n : Node) (x : String) : OnlyClears x fun s => (evaluate o n s).2 := by
  induction n using expression_induction o with
  | lookup name offset => exact OnlyClears.of_env fun s => env_lookupPatterns s o name
  | concat left right hleft hright =>
    rw [evaluate_concat]
    exact hleft.andThen hright
  | literal value => exact OnlyClears.of_env fun s => env_literalTaint s o value
  | encapsed parts => exact OnlyClears.of_keeps fun s => taintOf_interpolate parts x ∅ s
  | read y => exact OnlyClears.of_keeps fun s => s.env.taintOf_declare y x
  | pass function argument rest hpass ih =>
    rw [evaluate_pass hpass]
    exact ih
  | call function arguments hpass =>
    rw [evaluate_call hpass]
    intro s
    show (s.call function arguments).env.taintOf x = _ ∨ (s.call function arguments).env.taintOf x = ∅
    rw [taintOf_call]
    split
    · exact .inr rfl
    · exact .inl rfl
  | idle n heq => exact OnlyClears.of_env fun s => by rw [heq s]
  | inert n reason detail heq => exact OnlyClears.of_env fun s => by rw [heq s]; rfl

/-! ## §4. Statements. -/

theorem onlyClears_assign {target : Node} {x : String} (h : target ≠ .var (some x)) (taint : Taint) :
    OnlyClears x fun s => s.assign target taint := by
  refine OnlyClears.of_keeps fun s => ?_
  by_cases htarget : ∃ y, target = .var (some y)
  · obtain ⟨y, rfl⟩ := htarget
    have hne : x ≠ y := fun heq => h (heq ▸ rfl)
    show ((s.env.declare y).assign y taint).taintOf x = _
    rw [Env.taintOf_assign, if_neg hne, Env.taintOf_declare]
  · rw [Run.assign]
    · rfl
    · exact fun y hy => htarget ⟨y, hy⟩

/-- **Statements**: an execution only clears the variables that the statement does not assign. -/
theorem onlyClears_execute (o : Options) {n : Node} {x : String} (h : x ∉ n.targets) : OnlyClears x (execute o n) := by
  induction n using statement_induction o with
  | assign left right =>
    have htarget : left ≠ .var (some x) := by
      rintro rfl
      exact h List.mem_cons_self
    rw [execute_assign]
    intro s
    exact ((onlyClears_evaluate o right x).andThen (onlyClears_assign htarget (evaluate o right s).1)) s
  | echo arguments => exact OnlyClears.of_env (env_echo o arguments)
  | cond test body alternate hbody halternate =>
    rw [execute_cond]
    refine OnlyClears.branch _ ((OnlyClears.sequential x).body (fun n hn => hbody n hn fun hx => h ?_) false)
      ((OnlyClears.sequential x).alternate fun ns hns n hn => halternate ns hns n hn fun hx => h ?_)
    · have hmem := Node.mem_targetsOf.2 ⟨n, hn, hx⟩
      cases alternate <;> simp [Node.targets, hmem]
    · have hmem := Node.mem_targetsOf.2 ⟨n, hn, hx⟩
      rw [Option.mem_def.1 hns, Node.targets]
      exact List.mem_append_right _ hmem
  | loop test body hbody =>
    have hiteration : OnlyClears x (executeBody o .loop false body) := by
      refine (OnlyClears.sequential x).body (fun n hn => hbody n hn fun hx => h ?_) false
      exact Node.mem_targetsOf.2 ⟨n, hn, hx⟩
    intro s
    rw [execute_loop]
    show (settle (executeBody o .loop false body) (loopLimit body s) s).1.env.taintOf x = _ ∨
      (settle (executeBody o .loop false body) (loopLimit body s) s).1.env.taintOf x = ∅
    rw [settle_eq_iterate]
    exact hiteration.iterate _ s
  | block children hchildren =>
    rw [execute_block]
    exact (OnlyClears.sequential x).all fun n hn => hchildren n hn fun hx => h (Node.mem_targetsOf.2 ⟨n, hn, hx⟩)
  | inert n reason detail heq => exact OnlyClears.of_env fun s => by rw [heq s]; rfl

/-- **A variable gets marks by assignments to it only.**  Statements that do not assign the variable, however they are
nested and from wherever they start, leave its taint as it was or leave it clean, in a row as well as in a body; so a
variable that a sanitizer has cleaned stays clean, whatever runs before it is assigned again. -/
theorem taint_enters_by_assignment (o : Options) (ns : List Node) (x : String) (h : x ∉ Node.targetsOf ns) :
    (∀ s : Run, (executeAll o ns s).env.taintOf x = s.env.taintOf x ∨ (executeAll o ns s).env.taintOf x = ∅) ∧
    (∀ (c : Context) (started : Bool) (s : Run), (executeBody o c started ns s).env.taintOf x = s.env.taintOf x ∨
      (executeBody o c started ns s).env.taintOf x = ∅) ∧
    ∀ (function : String) (arguments : List Node) (s : Run), o.passesThrough function = false →
      (∃ p ∈ s.active, function ∈ p.sanitizers) → .var (some x) ∈ arguments →
      (executeAll o ns (evaluate o (.call (some function) arguments) s).2).env.taintOf x = ∅ := by
  have hstatements : ∀ n ∈ ns, OnlyClears x (execute o n) := fun n hn =>
    onlyClears_execute o fun hx => h (Node.mem_targetsOf.2 ⟨n, hn, hx⟩)
  have hall : OnlyClears x (executeAll o ns) := (OnlyClears.sequential x).all hstatements
  refine ⟨hall, fun c started => (OnlyClears.sequential x).body hstatements started, ?_⟩
  intro function arguments s hpass hsanitizer hx
  have hmem : x ∈ Node.variablesAmong arguments := mem_variablesAmong.2 hx
  have hcleans : s.Cleans function (Node.variablesAmong arguments) := ⟨hsanitizer, List.ne_nil_of_mem hmem⟩
  refine hall.clean ?_
  rw [evaluate_call hpass]
  show (s.call function arguments).env.taintOf x = ∅
  rw [taintOf_call, if_pos ⟨hcleans, hmem⟩]

/-- The input is escaped in one branch only; behind it a loop copies it around. -/
def halfEscaped : List Node :=
  [.cond (.var (some "b"))
    [.assign (.var (some "y")) (.call (some "escape") [.var (some "x")])]
    (some [.block [.assign (.var (some "y")) (.bin "." (.var (some "x")) (.string "!"))]]),
   .loop (.var (some "i"))
    [.assign (.var (some "z")) (.var (some "y")), .assign (.var (some "y")) (.encapsed [.var (some "x")])]]

theorem halfEscaped_keeps_taint :
    let o : Options := { blockStrategy := .all }
    let s : Run :=
      { active := [.build "SQL" ["$_GET"] ["escape"] ["query"]], env := .ofList [("x", .ofList ["SQL"])] }
    let cleaned := (evaluate o (.call (some "escape") [.var (some "x")]) s).2
    "x" ∉ Node.targetsOf halfEscaped ∧
      (executeAll o halfEscaped s).env.taintOf "x" = .ofList ["SQL"] ∧
      (executeAll o halfEscaped s).env.taintOf "z" = .ofList ["SQL"] ∧
      (executeAll o halfEscaped cleaned).env.taintOf "x" = ∅ := by
  intro o s cleaned
  have htargets : "x" ∉ Node.targetsOf halfEscaped := by decide +kernel
  obtain ⟨hall, -, hcleaned⟩ := taint_enters_by_assignment o halfEscaped "x" htargets
  refine ⟨htargets, ?_, by decide +kernel, ?_⟩
  · exact (hall s).resolve_right (by decide +kernel)
  · exact hcleaned "escape" [.var (some "x")] s (by decide +kernel) (by decide +kernel) List.mem_cons_self

end TaintFlow
