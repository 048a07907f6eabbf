/-
  TaintFlow.Analysis.Env
  ──────────────────────
  Environments: which marks each variable carries.

  The marks of a variable form its taint; in an analysis they are names of patterns.
  Reading a variable that is not there registers it as clean.  The variables stand in
  the order in which they were first registered.
-/
import TaintFlow.OrderedMap
import TaintFlow.OrderedSet

namespace TaintFlow

/-- The marks of every registered variable. -/
structure Env (μ : Type) [Ord μ] where
  bindings : OrderedMap String (OrderedSet μ)
  deriving Repr

namespace Env

variable {μ : Type} [Ord μ]

instance [DecidableEq μ] : DecidableEq (Env μ) := fun a b =>
  decidable_of_iff (a.bindings = b.bindings) (by cases a; cases b; simp)

/-! ## §1. Look-up. -/

/-- No variable is registered. -/
def empty : Env μ := ⟨OrderedMap.empty⟩

instance : Inhabited (Env μ) := ⟨empty⟩

/-- The registered variables in order. -/
def names (e : Env μ) : List String := e.bindings.keys

/-- The number of registered variables. -/
def size (e : Env μ) : Nat := e.bindings.size

/-- Is the variable registered? -/
def contains (e : Env μ) (x : String) : Bool := e.bindings.contains x

/-- The taint of a variable; one that is not registered is clean. -/
def taintOf (e : Env μ) (x : String) : OrderedSet μ := (e.bindings.get? x).getD ∅

/-- The variables that carry a mark, in order of registration. -/
def taintedNames (e : Env μ) : List String :=
  (e.bindings.entries.filter fun b => !b.2.isEmpty).map (·.1)

/-- The number of pairs of a variable and a mark that it carries. -/
def weight (e : Env μ) : Nat := e.bindings.entries.foldr (fun b n => b.2.size + n) 0

/-! ## §2. Changes. -/

/-- Give a variable a taint. -/
def assign (e : Env μ) (x : String) (taint : OrderedSet μ) : Env μ := ⟨e.bindings.put x taint⟩

/-- Clear a variable. -/
def sanitize (e : Env μ) (x : String) : Env μ := e.assign x ∅

/-- Register a variable, as clean if it is new. -/
def declare (e : Env μ) (x : String) : Env μ := if e.contains x then e else e.sanitize x

/-- The environment of pairs given one after the other. -/
def ofList (l : List (String × OrderedSet μ)) : Env μ := ⟨.ofList l⟩

variable [Std.TransOrd μ]

/-- What is known after either of two branches: the variables of both, each with the
marks of both.  The variables of the second branch come first. -/
def join (first second : Env μ) : Env μ :=
  first.bindings.entries.foldl (fun e b => e.assign b.1 (b.2 ∪ second.taintOf b.1)) second

end Env

end TaintFlow
