/-
  TaintFlow.Analysis.Execute
  ──────────────────────────
  The effect of statements.

  Both branches of a conditional start from the environment before it, and their
  environments are joined behind it; everything else in the state passes through the
  first branch and then through the second.  A loop body is executed again as long as it
  adds to the weight of the environment.  `loopLimit` bounds the number of iterations by
  what the weight can reach at all, so the iteration needs no other end.
-/
import TaintFlow.Analysis.Evaluate

namespace TaintFlow

/-! ## §1. Guards. -/

/-- The operators that compare for equality. -/
def equalityOperators : List String := ["==", "==="]

/-- The literal that a test compares a variable with. -/
def guardedLiteral? : Node → Option String
  | .bin operator (.var _) (.string value) => if operator ∈ equalityOperators then some value else none
  | .bin operator (.string value) (.var _) => if operator ∈ equalityOperators then some value else none
  | _ => none

/-- The literal that guards the branches of a test under the given options. -/
def Options.guardOf (o : Options) (test : Node) : Option String :=
  if o.guardedLiterals then guardedLiteral? test else none

/-! ## §2. Simple statements. -/

namespace Run

/-- Give a taint to the target of an assignment. -/
def assign (s : Run) (target : Node) (taint : Taint) : Run :=
  match target with
  | .var (some x) => { s with env := (s.env.declare x).assign x taint }
  | target => s.fallback "assign_without_target" target.kindName

/-- Print the value of an entry point: every pattern with that entry point whose sinks
include printing is violated. -/
def echoLookup (s : Run) (o : Options) (name : Option String) : Run :=
  let (patterns, s) := s.lookupPatterns o name
  patterns.foldl
    (fun s p =>
      if o.echoSink ∈ p.sinks then
        { s with verdict := s.verdict.markVulnerable p.name }.log (.taintedOutput (name.getD "") p.name)
      else s)
    s

/-- Print arguments.  Only reads that stand among them directly count. -/
def echo (o : Options) : List Node → Run → Run
  | [], s => s
  | .offsetLookup name _ :: rest, s => echo o rest (s.echoLookup o name)
  | _ :: rest, s => echo o rest s

end Run

/-! ## §3. Loops. -/

/-- Execute `body` until it no longer adds to the weight of the environment, but at most
`limit` times.  The answer has the number of executions. -/
def settle (body : Run → Run) : (limit : Nat) → Run → Run × Nat
  | 0, s => (s, 0)
  | limit + 1, s =>
    let next := body s
    if s.env.weight < next.env.weight then
      let (last, iterations) := settle body limit next
      (last, iterations + 1)
    else (next, 1)

/-- A bound on the executions of a loop body.  Each one but the last adds to the weight, and
the weight is at most the number of variables times the number of marks that can occur. -/
def loopLimit (body : List Node) (s : Run) : Nat :=
  (s.env.size + (Node.variableNamesOf body).length) * (s.active.length + s.env.weight) + 1

/-- The state after a loop that took this many iterations. -/
def Run.finishLoop (s : Run) (iterations : Nat) : Run :=
  { s with verdict := s.verdict.addIterations iterations }.log (.loopSettled iterations)

/-! ## §4. Statements. -/

/-- What a body belongs to.  A body of another kind is named by a label. -/
inductive Context where
  | branch
  | loop
  | other (label : String)
  deriving DecidableEq, Repr

/-- The word for what a body belongs to. -/
def Context.label : Context → String
  | .branch => "branch"
  | .loop => "loop"
  | .other label => label

/-- The body that a word names. -/
def Context.ofLabel (label : String) : Context :=
  if label = "branch" then .branch else if label = "loop" then .loop else .other label

/-- The reason under which statements of a body are counted that are not executed. -/
def Context.skipReason (c : Context) : String := c.label ++ "_statement_skipped"

/-- Is a statement of a body executed?  Under the strategy `all` every statement of a branch
is.  Otherwise only assignments and conditionals are, and under the strategy `first` only the
first of them. -/
def Options.executes (o : Options) (c : Context) (started : Bool) (n : Node) : Bool :=
  match o.blockStrategy, c with
  | .all, .branch => true
  | .all, _ => n.isBodyStatement
  | .first, _ => n.isBodyStatement && !started

mutual

/-- The state after a statement. -/
def execute (o : Options) : Node → Run → Run
  | .assign left right, s =>
    let (taint, s) := evaluate o right s
    s.assign left taint
  | .echo arguments, s => Run.echo o arguments s
  | .cond test body alternate, s =>
    let guard := o.guardOf test
    let afterThen := executeBody o .branch false body (s.enter guard)
    let afterElse := executeAlternate o alternate { afterThen with env := s.env }
    { afterElse.leave guard with env := afterThen.env.join afterElse.env }
  | .loop _ body, s =>
    let (last, iterations) := settle (fun s => executeBody o .loop false body s) (loopLimit body s) s
    last.finishLoop iterations
  | .block children, s => executeAll o children s
  | .unknown rawKind _, s => s.fallback "unknown_statement" (rawKind.getD "None")
  | n, s => s.fallback "ignored_statement" n.kindName

/-- The state after the second branch of a conditional, which may be absent. -/
def executeAlternate (o : Options) : Option (List Node) → Run → Run
  | none, s => s
  | some body, s => executeBody o .branch false body s

/-- The state after statements in a row. -/
def executeAll (o : Options) : List Node → Run → Run
  | [], s => s
  | n :: rest, s => executeAll o rest (execute o n s)

/-- The state after the body of a branch or a loop; `started` tells whether one of its
statements has been executed. -/
def executeBody (o : Options) (c : Context) (started : Bool) : List Node → Run → Run
  | [], s => s
  | n :: rest, s =>
    if o.executes c started n then executeBody o c true rest (execute o n s)
    else executeBody o c started rest (s.fallback c.skipReason n.kindName)

end

end TaintFlow
