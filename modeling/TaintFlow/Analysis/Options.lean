/-
  TaintFlow.Analysis.Options
  ──────────────────────────
  What can be chosen about an analysis.
-/
import TaintFlow.Data.Datum

namespace TaintFlow

/-- Which statements of a branch or loop body are executed. -/
inductive BlockStrategy where
  /-- Only the first assignment or conditional. -/
  | first
  /-- All of them. -/
  | all
  deriving DecidableEq, Repr

/-- What reading an entry point does to the patterns under consideration. -/
inductive Narrowing where
  /-- Nothing. -/
  | scoped
  /-- Only the patterns with that entry point stay under consideration. -/
  | legacy
  deriving DecidableEq, Repr

/-- The name of a strategy. -/
def BlockStrategy.name : BlockStrategy → String
  | .first => "first"
  | .all => "all"

/-- The name of a narrowing mode. -/
def Narrowing.name : Narrowing → String
  | .scoped => "scoped"
  | .legacy => "legacy"

/-- The strategy with a name. -/
def BlockStrategy.ofName? (name : String) : Option BlockStrategy :=
  [BlockStrategy.first, .all].find? fun s => s.name = name

/-- The narrowing mode with a name. -/
def Narrowing.ofName? (name : String) : Option Narrowing :=
  [Narrowing.scoped, .legacy].find? fun m => m.name = name

/-- The choices of an analysis. -/
structure Options where
  blockStrategy : BlockStrategy := .first
  narrowing : Narrowing := .scoped
  /-- Does a literal that equals the literal guarding it count as tainted? -/
  guardedLiterals : Bool := true
  /-- The functions that hand on the taint of their first argument. -/
  passthrough : List Datum := [.text "substr"]
  /-- What stands in front of a variable's name in the name of an entry point. -/
  entryPointSign : String := "$"
  /-- The sink that printing counts as. -/
  echoSink : String := "echo"

namespace Options

instance : Inhabited Options := ⟨{}⟩

/-- Does a function hand on the taint of its first argument? -/
def passesThrough (o : Options) (function : String) : Bool :=
  o.passthrough.any fun d => d.text? == some function

end Options

end TaintFlow
