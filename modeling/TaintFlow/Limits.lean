/-
  TaintFlow.Limits
  ────────────────
  How deeply nested the texts and trees may be that are worked on.

  Nothing but the room for nested calls sets these bounds, so they belong to the place where the
  program runs: whatever is said about trees and scans is said for any limits.
-/
import TaintFlow.Analysis.Options

namespace TaintFlow

/-- Bounds on nesting. -/
structure Limits where
  /-- How deeply the lists and mappings of a text may be nested. -/
  text : Nat
  /-- How deeply the nodes of a tree may be nested. -/
  tree : Nat
  /-- How deeply the conditionals that are executed may be nested, which depends on what is executed of a body. -/
  cond : BlockStrategy → Nat

/-- The bounds for a program that is started on its own. -/
def Limits.standard : Limits where
  text := 990
  tree := 320
  cond
    | .first => 245
    | .all => 198

end TaintFlow
