/-
  TaintFlow.Syntax.Node
  ─────────────────────
  The syntax trees that are analysed.

  One type serves for statements and expressions, since a tree may put either where
  the other belongs.  What could not be recognised is kept as an `unknown` node with
  the reason, so a tree is never rejected for one bad part.
-/

namespace TaintFlow

/-! ## §1. The type. -/

/-- A part that certain nodes must have. -/
inductive Part where
  | left
  | right
  | test
  deriving DecidableEq, Repr

/-- The name of the part's field. -/
def Part.name : Part → String
  | .left => "left"
  | .right => "right"
  | .test => "test"

/-- Why a node could not be recognised. -/
inductive Degradation where
  | notAnObject
  | withoutKind
  | unrecognizedKind
  | missing (part : Part)
  deriving DecidableEq, Repr

/-- The word under which a degradation is counted. -/
def Degradation.reason : Degradation → String
  | .notAnObject => "non_object_node"
  | .withoutKind => "node_without_kind"
  | .unrecognizedKind => "unrecognized_kind"
  | .missing part => "missing_" ++ part.name

/-- A node of a syntax tree. -/
inductive Node where
  | unknown (rawKind : Option String) (reason : Degradation)
  | var (name : Option String)
  | string (value : String)
  /-- A read such as `$_GET['id']`. -/
  | offsetLookup (name : Option String) (offset : Option Node)
  | bin (operator : String) (left right : Node)
  | call (name : Option String) (arguments : List Node)
  /-- A text with values interpolated. -/
  | encapsed (parts : List Node)
  | assign (left right : Node)
  | echo (arguments : List Node)
  | cond (test : Node) (body : List Node) (alternate : Option (List Node))
  | loop (test : Node) (body : List Node)
  | block (children : List Node)
  deriving Repr

instance : Inhabited Node := ⟨.unknown none .notAnObject⟩

/-- A whole tree. -/
structure Program where
  children : List Node
  deriving Repr

/-! ## §2. Kinds. -/

/-- The kinds of nodes that a tree can name. -/
inductive Kind where
  | assign
  | echo
  | cond
  | loop
  | bin
  | call
  | offsetLookup
  | var
  | string
  | encapsed
  | block
  deriving DecidableEq, Repr

namespace Kind

/-- The name of a kind. -/
def name : Kind → String
  | .assign => "assign"
  | .echo => "echo"
  | .cond => "if"
  | .loop => "while"
  | .bin => "bin"
  | .call => "call"
  | .offsetLookup => "offsetlookup"
  | .var => "variable"
  | .string => "string"
  | .encapsed => "encapsed"
  | .block => "block"

/-- All kinds. -/
def all : List Kind :=
  [.assign, .echo, .cond, .loop, .bin, .call, .offsetLookup, .var, .string, .encapsed, .block]

/-- The kind with a name. -/
def ofName? (name : String) : Option Kind := all.find? fun k => k.name = name

end Kind

namespace Node

/-- The name of a node's kind. -/
def kindName : Node → String
  | .unknown .. => "unknown"
  | .var _ => Kind.var.name
  | .string _ => Kind.string.name
  | .offsetLookup .. => Kind.offsetLookup.name
  | .bin .. => Kind.bin.name
  | .call .. => Kind.call.name
  | .encapsed _ => Kind.encapsed.name
  | .assign .. => Kind.assign.name
  | .echo _ => Kind.echo.name
  | .cond .. => Kind.cond.name
  | .loop .. => Kind.loop.name
  | .block _ => Kind.block.name

/-- Is this an assignment or a conditional?  Only these are executed in the bodies of
loops, and in the bodies of branches when only one statement counts. -/
def isBodyStatement : Node → Bool
  | .assign .. | .cond .. => true
  | _ => false

/-! ## §3. Variables of a tree. -/

mutual

/-- The names of the variable nodes of a tree, with repetitions. -/
def variableNames : Node → List String
  | .unknown .. | .string _ => []
  | .var name => name.toList
  | .offsetLookup _ none => []
  | .offsetLookup _ (some offset) => variableNames offset
  | .bin _ left right => variableNames left ++ variableNames right
  | .call _ arguments => variableNamesOf arguments
  | .encapsed parts => variableNamesOf parts
  | .assign left right => variableNames left ++ variableNames right
  | .echo arguments => variableNamesOf arguments
  | .cond test body none => variableNames test ++ variableNamesOf body
  | .cond test body (some alternate) =>
    variableNames test ++ variableNamesOf body ++ variableNamesOf alternate
  | .loop test body => variableNames test ++ variableNamesOf body
  | .block children => variableNamesOf children

/-- The names of the variable nodes of several trees. -/
def variableNamesOf : List Node → List String
  | [] => []
  | n :: rest => variableNames n ++ variableNamesOf rest

end

end Node

end TaintFlow
