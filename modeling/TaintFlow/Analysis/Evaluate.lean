/-
  TaintFlow.Analysis.Evaluate
  ───────────────────────────
  The taint of expressions.

  Foreign data carries the names of the patterns whose entry point it was read from;
  concatenation and interpolation unite the marks of their parts; a call is a sink or a
  sanitizer for the variables among its arguments and returns clean data.
-/
import TaintFlow.Analysis.Run
import TaintFlow.Syntax.Node

namespace TaintFlow

namespace Run

/-! ## §1. Entry points and literals. -/

/-- The patterns for which reading the array with this name is an entry point. -/
def lookupPatterns (s : Run) (o : Options) : Option String → List Pattern × Run
  | none => ([], s.fallback "offsetlookup_without_name" "")
  | some name => s.queryEntryPoint o.narrowing (o.entryPointSign ++ name)

/-- The taint of a literal: clean, unless it equals the literal that guards it. -/
def literalTaint (s : Run) (o : Options) (value : String) : Taint × Run :=
  if o.guardedLiterals ∧ s.guard? = some value then
    (s.activeNames, s.log (.guardedLiteral value))
  else (∅, s)

/-- The taint so far united with that of the variables that stand among the parts. -/
def interpolate (taint : Taint) : List Node → Run → Taint × Run
  | [], s => (taint, s)
  | .var (some x) :: rest, s =>
    let (t, s) := s.read x
    interpolate (taint ∪ t) rest s
  | _ :: rest, s => interpolate taint rest s

/-! ## §2. Calls. -/

/-- The names of the variables that stand among the arguments. -/
def namedArguments : List Node → Run → List String × Run
  | [], s => ([], s)
  | .var (some x) :: rest, s =>
    let (names, s) := namedArguments rest s
    (x :: names, s)
  | .var none :: rest, s => namedArguments rest (s.fallback "variable_without_name" "")
  | _ :: rest, s => namedArguments rest s

/-- Read an argument of a sink and report it if it carries the pattern's name. -/
def checkArgument (function : String) (pattern : Pattern) (s : Run) (x : String) : Run :=
  let (taint, s) := s.read x
  if pattern.name ∈ taint then
    { s with verdict := s.verdict.markVulnerable pattern.name }.log
      (.taintedCall x function pattern.name)
  else s

/-- Check all arguments of a sink. -/
def checkSink (function : String) (arguments : List String) (s : Run) (pattern : Pattern) : Run :=
  arguments.foldl (checkArgument function pattern) s

/-- Clear the arguments and note the sanitizer. -/
def applySanitizer (s : Run) (function : String) (arguments : List String) : Run :=
  { s with
    env := arguments.foldl Env.sanitize s.env,
    verdict := s.verdict.recordSanitizer function }

/-- The effects of a call: the arguments reach the sinks first and are cleaned then. -/
def call (s : Run) (function : String) (arguments : List Node) : Run :=
  let sinks := Catalog.withSink function s.active
  let sanitizers := Catalog.withSanitizer function s.active
  if sinks = [] ∧ sanitizers = [] then s
  else
    let (names, s) := namedArguments arguments s
    let s := sinks.foldl (checkSink function names) s
    if sanitizers = [] ∨ names = [] then s else s.applySanitizer function names

end Run

/-! ## §3. Expressions. -/

/-- The operator that concatenates. -/
def concatOperator : String := "."

mutual

/-- The taint of an expression, and the state after its evaluation. -/
def evaluate (o : Options) : Node → Run → Taint × Run
  | .offsetLookup name _, s =>
    let (patterns, s) := s.lookupPatterns o name
    (.ofList (patterns.map (·.name)), s)
  | .bin operator left right, s =>
    if operator = concatOperator then
      let (a, s) := evaluate o left s
      let (b, s) := evaluate o right s
      (a ∪ b, s)
    else (∅, s)
  | .string value, s => s.literalTaint o value
  | .encapsed parts, s => Run.interpolate ∅ parts s
  | .var (some x), s => s.read x
  | .var none, s => (∅, s.fallback "variable_without_name" "")
  | .call none _, s => (∅, s.fallback "call_without_name" "")
  | .call (some function) arguments, s =>
    if o.passesThrough function then evaluateFirst o arguments s
    else (∅, s.call function arguments)
  | n, s => (∅, s.fallback "unknown_expression" n.kindName)

/-- The taint of the first argument; without one it is clean. -/
def evaluateFirst (o : Options) : List Node → Run → Taint × Run
  | [], s => (∅, s)
  | n :: _, s => evaluate o n s

end

end TaintFlow
