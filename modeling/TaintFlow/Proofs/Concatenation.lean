/-
  TaintFlow.Proofs.Concatenation
  ──────────────────────────────
  **Concatenations act by their operands.**

  A concatenation of concatenations is a tree of any shape, and its operands are the nodes at which
  the concatenating ends.  An operand may clean a variable that a later one reads, reach a sink or
  narrow the patterns, so their order matters; how they are grouped does not.

    • `Node.operands` — the operands of a tree from left to right,
    • `evaluateEach` — expressions evaluated one after the other, each in the state that the one
      before has left,
    • `evaluate_eq_operands` — evaluating a tree is evaluating its operands and uniting the taints.
-/
import TaintFlow.Proofs.Environment
import TaintFlow.Proofs.Statement

namespace TaintFlow

/-! ## §1. Operands. -/

namespace Node

/-- Is this a concatenation? -/
def IsConcatenation (n : Node) : Prop := ∃ left right, n = .bin concatOperator left right

/-- The operands of a concatenation from left to right; any other node is its only one. -/
def operands : Node → List Node
  | .bin operator left right =>
    if operator = concatOperator then operands left ++ operands right else [.bin operator left right]
  | n => [n]

theorem operands_concat (left right : Node) :
    (Node.bin concatOperator left right).operands = left.operands ++ right.operands := by
  rw [operands, if_pos rfl]

theorem operands_of_not_concatenation {n : Node} (h : ¬ n.IsConcatenation) : n.operands = [n] := by
  cases n with
  | bin operator left right =>
    rw [operands, if_neg]
    rintro rfl
    exact h ⟨left, right, rfl⟩
  | _ => rfl

/-- **Induction on concatenations.** -/
theorem concatenation_induction {motive : Node → Prop}
    (concat : ∀ left right, motive left → motive right → motive (.bin concatOperator left right))
    (leaf : ∀ n, ¬ n.IsConcatenation → motive n) (n : Node) : motive n := by
  induction n using Node.induction with
  | step n ih =>
    by_cases h : n.IsConcatenation
    · obtain ⟨left, right, rfl⟩ := h
      exact concat left right (ih left (by simp [children])) (ih right (by simp [children]))
    · exact leaf n h

/-- No operand is itself a concatenation. -/
theorem not_concatenation_of_mem_operands (n : Node) : ∀ m ∈ n.operands, ¬ m.IsConcatenation := by
  induction n using concatenation_induction with
  | concat left right hleft hright =>
    intro m hm
    rw [operands_concat, List.mem_append] at hm
    exact hm.elim (hleft m) (hright m)
  | leaf n h =>
    intro m hm
    rw [operands_of_not_concatenation h, List.mem_singleton] at hm
    rw [hm]
    exact h

end Node

/-! ## §2. One expression after the other. -/

/-- The taints of expressions that are evaluated one after the other, and the state after the last one. -/
def evaluateEach (o : Options) : List Node → Run → List Taint × Run
  | [], s => ([], s)
  | n :: rest, s =>
    let (taint, s) := evaluate o n s
    let (taints, s) := evaluateEach o rest s
    (taint :: taints, s)

theorem evaluateEach_cons (o : Options) (n : Node) (rest : List Node) (s : Run) :
    evaluateEach o (n :: rest) s
      = ((evaluate o n s).1 :: (evaluateEach o rest (evaluate o n s).2).1,
          (evaluateEach o rest (evaluate o n s).2).2) := rfl

/-- What comes first hands its state on to what comes after. -/
theorem evaluateEach_append (o : Options) (ns ms : List Node) (s : Run) :
    evaluateEach o (ns ++ ms) s
      = ((evaluateEach o ns s).1 ++ (evaluateEach o ms (evaluateEach o ns s).2).1,
          (evaluateEach o ms (evaluateEach o ns s).2).2) := by
  induction ns generalizing s with
  | nil => rfl
  | cons n ns ih => rw [List.cons_append, evaluateEach_cons, ih, evaluateEach_cons, List.cons_append]

/-- The marks of all the taints. -/
def unite (taints : List Taint) : Taint := taints.foldr (· ∪ ·) ∅

theorem mem_unite {taints : List Taint} {m : String} : m ∈ unite taints ↔ ∃ t ∈ taints, m ∈ t := by
  induction taints with
  | nil => simp [unite]
  | cons t ts ih =>
    show m ∈ t ∪ unite ts ↔ _
    rw [OrderedSet.mem_union, ih, List.exists_mem_cons_iff]

theorem unite_append (ts us : List Taint) : unite (ts ++ us) = unite ts ∪ unite us := by
  refine OrderedSet.ext fun m => ?_
  simp only [OrderedSet.mem_union, mem_unite, List.mem_append, or_and_right, exists_or]

theorem unite_singleton (t : Taint) : unite [t] = t := by
  refine OrderedSet.ext fun m => ?_
  simp [mem_unite]

/-! ## §3. Trees. -/

/-- **Evaluating a tree is evaluating its operands and uniting their taints.** -/
theorem evaluate_eq_operands (o : Options) (n : Node) (s : Run) :
    evaluate o n s = (unite (evaluateEach o n.operands s).1, (evaluateEach o n.operands s).2) := by
  induction n using Node.concatenation_induction generalizing s with
  | concat left right hleft hright =>
    -- the right side starts in the state that the operands of the left side leave
    simp only [evaluate_concat, Node.operands_concat, evaluateEach_append, unite_append, hleft, hright]
  | leaf n h =>
    rw [Node.operands_of_not_concatenation h]
    show evaluate o n s = (unite [(evaluate o n s).1], (evaluate o n s).2)
    rw [unite_singleton]

/-- **A concatenation acts by its operands.**  Its taint has the marks of its operands, none of which is
a concatenation, evaluated from left to right with the state handed on; it ends in the state that they end in;
and another tree with the same operands cannot be told from it. -/
theorem concatenation_acts_by_operands (o : Options) (n : Node) :
    (∀ m ∈ n.operands, ¬ m.IsConcatenation) ∧
    (∀ s mark, mark ∈ (evaluate o n s).1 ↔ ∃ taint ∈ (evaluateEach o n.operands s).1, mark ∈ taint) ∧
    (∀ s, (evaluate o n s).2 = (evaluateEach o n.operands s).2) ∧
    ∀ n' : Node, n'.operands = n.operands → ∀ s, evaluate o n' s = evaluate o n s := by
  refine ⟨n.not_concatenation_of_mem_operands, fun s mark => ?_, fun s => ?_, fun n' h s => ?_⟩
  · rw [evaluate_eq_operands, mem_unite]
  · rw [evaluate_eq_operands]
  · rw [evaluate_eq_operands o n', evaluate_eq_operands o n, h]

/-- Two patterns, and two variables that their input has reached. -/
def reachedVariables : Run :=
  { active := [.build "SQL" ["$_GET"] ["escape"] ["query"], .build "XSS" ["$_POST"] ["strip"] ["show"]],
    env := .ofList [("a", .ofList ["SQL"]), ("b", .ofList ["XSS"])] }

/-- `$a`, `escape($a)`, `$_GET[..]`, `show($b)` and `$a` once more, grouped to the left. -/
def leftGrouped : Node :=
  .bin "." (.bin "." (.bin "." (.bin "." (.var (some "a")) (.call (some "escape") [.var (some "a")]))
    (.offsetLookup (some "_GET") none)) (.call (some "show") [.var (some "b")])) (.var (some "a"))

/-- The same operands grouped to the right. -/
def rightGrouped : Node :=
  .bin "." (.var (some "a")) (.bin "." (.call (some "escape") [.var (some "a")])
    (.bin "." (.offsetLookup (some "_GET") none) (.bin "." (.call (some "show") [.var (some "b")]) (.var (some "a")))))

/-- Either way the variable is read before it is cleaned, and in legacy mode the read in the middle leaves a
single pattern, so that the sink behind it reports nothing. -/
theorem rightGrouped_acts_as_leftGrouped :
    let o : Options := { narrowing := .legacy }
    let result := evaluate o leftGrouped reachedVariables
    rightGrouped.operands = leftGrouped.operands ∧ evaluate o rightGrouped reachedVariables = result ∧
      result.1 = .ofList ["SQL"] ∧ result.2.env.taintOf "a" = ∅ ∧ result.2.env.taintOf "b" = .ofList ["XSS"] ∧
      result.2.active.map (·.name) = ["SQL"] ∧ result.2.verdict.violatedPatterns = [] ∧
      result.2.verdict.sanitizersApplied = ["escape"] := by
  intro o result
  have hoperands : rightGrouped.operands = leftGrouped.operands := rfl
  have hsame : evaluate o rightGrouped reachedVariables = result :=
    (concatenation_acts_by_operands o leftGrouped).2.2.2 rightGrouped hoperands reachedVariables
  exact ⟨hoperands, hsame, by decide +kernel, by decide +kernel, by decide +kernel, by decide +kernel,
    by decide +kernel, by decide +kernel⟩

end TaintFlow
