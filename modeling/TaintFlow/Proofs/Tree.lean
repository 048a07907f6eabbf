/-
  TaintFlow.Proofs.Tree
  ─────────────────────
  **What occurs in a tree.**

  `children` lists the nodes directly below a node, whatever part they are.  From it come

    • `Node.induction` — induction on trees with one hypothesis for every child,
    • `Node.Occurs` — a node stands somewhere in a tree, at any depth,
    • `mem_variableNames_of_occurs` — the variables of a tree are all listed.
-/
import TaintFlow.Syntax.Node

namespace TaintFlow.Node

/-! ## §1. Children. -/

/-- The nodes directly below a node. -/
def children : Node → List Node
  | .unknown .. | .var _ | .string _ => []
  | .offsetLookup _ offset => offset.toList
  | .bin _ left right => [left, right]
  | .call _ arguments => arguments
  | .encapsed parts => parts
  | .assign left right => [left, right]
  | .echo arguments => arguments
  | .cond test body alternate => test :: (body ++ alternate.getD [])
  | .loop test body => test :: body
  | .block statements => statements

theorem sizeOf_lt_of_mem_children {c n : Node} (h : c ∈ n.children) : sizeOf c < sizeOf n := by
  have hlist : ∀ l : List Node, c ∈ l → sizeOf c < sizeOf l := fun l => List.sizeOf_lt_of_mem
  cases n with
  | unknown | var | string => simp [children] at h
  | offsetLookup name offset =>
    obtain rfl : offset = some c := by simpa [children, eq_comm] using h
    rw [offsetLookup.sizeOf_spec, Option.some.sizeOf_spec]
    omega
  | bin operator left right =>
    rw [bin.sizeOf_spec]
    obtain rfl | rfl : c = left ∨ c = right := by simpa [children] using h
    · omega
    · omega
  | assign left right =>
    rw [assign.sizeOf_spec]
    obtain rfl | rfl : c = left ∨ c = right := by simpa [children] using h
    · omega
    · omega
  | call name l =>
    have hl := hlist l h
    rw [call.sizeOf_spec]
    omega
  | encapsed l =>
    have hl := hlist l h
    rw [encapsed.sizeOf_spec]
    omega
  | echo l =>
    have hl := hlist l h
    rw [echo.sizeOf_spec]
    omega
  | block l =>
    have hl := hlist l h
    rw [block.sizeOf_spec]
    omega
  | loop test body =>
    rw [loop.sizeOf_spec]
    rcases List.mem_cons.1 h with rfl | h
    · omega
    · have hbody := hlist body h
      omega
  | cond test body alternate =>
    rw [cond.sizeOf_spec]
    rcases List.mem_cons.1 h with rfl | h
    · omega
    · rcases List.mem_append.1 h with h | h
      · have hbody := hlist body h
        omega
      · cases alternate with
        | none => exact absurd h List.not_mem_nil
        | some l =>
          have hl := hlist l h
          rw [Option.some.sizeOf_spec]
          omega

/-- **Induction on trees**: a property that passes from the children of a node to the node
holds of every node. -/
theorem induction {P : Node → Prop} (step : ∀ n, (∀ c ∈ n.children, P c) → P n) (n : Node) : P n :=
  step n fun c _hc => induction step c
termination_by sizeOf n
decreasing_by exact sizeOf_lt_of_mem_children _hc

/-! ## §2. Occurrence. -/

/-- The first node stands in the tree of the second, or is its root. -/
inductive Occurs (m : Node) : Node → Prop where
  | root : Occurs m m
  | inside {c n : Node} (child : c ∈ n.children) (occurs : Occurs m c) : Occurs m n

/-- The node stands in one of the trees. -/
def OccursIn (m : Node) (ns : List Node) : Prop := ∃ n ∈ ns, m.Occurs n

theorem Occurs.trans {k m n : Node} (hkm : k.Occurs m) (hmn : m.Occurs n) : k.Occurs n := by
  induction hmn with
  | root => exact hkm
  | inside child _ ih => exact .inside child ih

theorem mem_variableNamesOf {x : String} {ns : List Node} :
    x ∈ variableNamesOf ns ↔ ∃ n ∈ ns, x ∈ variableNames n := by
  induction ns with
  | nil => simp [variableNamesOf]
  | cons n ns ih => simp [variableNamesOf, ih]

theorem mem_variableNames_of_child {x : String} {c n : Node} (hc : c ∈ n.children)
    (hx : x ∈ variableNames c) : x ∈ variableNames n := by
  have hlist : ∀ l : List Node, c ∈ l → x ∈ variableNamesOf l := fun l hl =>
    mem_variableNamesOf.2 ⟨c, hl, hx⟩
  cases n with
  | unknown | var | string => simp [children] at hc
  | offsetLookup name offset =>
    obtain rfl : offset = some c := by simpa [children, eq_comm] using hc
    simpa [variableNames] using hx
  | bin operator left right | assign left right =>
    obtain rfl | rfl : c = left ∨ c = right := by simpa [children] using hc
    all_goals simp [variableNames, hx]
  | call name l | encapsed l | echo l | block l =>
    simpa [variableNames] using hlist l hc
  | loop test body =>
    rcases List.mem_cons.1 hc with rfl | hc
    · simp [variableNames, hx]
    · simp [variableNames, hlist body hc]
  | cond test body alternate =>
    rcases List.mem_cons.1 hc with rfl | hc
    · cases alternate <;> simp [variableNames, hx]
    · rcases List.mem_append.1 hc with hbody | hother
      · have := hlist body hbody
        cases alternate <;> simp [variableNames, this]
      · cases alternate with
        | none => simp at hother
        | some l => simp [variableNames, hlist l hother]

/-- Every named variable that occurs in a tree is listed among its variables. -/
theorem mem_variableNames_of_occurs {x : String} {n : Node} (h : Occurs (.var (some x)) n) :
    x ∈ variableNames n := by
  induction h with
  | root => simp [variableNames]
  | inside child _ ih => exact mem_variableNames_of_child child ih

end TaintFlow.Node
