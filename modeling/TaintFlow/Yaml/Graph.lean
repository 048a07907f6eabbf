/-
  TaintFlow.Yaml.Graph
  ────────────────────
  The nodes of a document: scalars with their texts, lists and mappings, each with its tag.

  `Graph.read` reads a text that holds one document, or none.  An alias is the node that was
  given its name before, so a node may be a part of several others, and even of itself.  The
  grammar needs one token of lookahead; the bound of the recursion comes from the number of tokens.
-/
import TaintFlow.OrderedMap
import TaintFlow.Yaml.Tag
import TaintFlow.Yaml.Token

namespace TaintFlow.Yaml

/-- What a node holds.  Parts are given by their numbers. -/
inductive Content where
  | scalar (text : String)
  | list (items : List Nat)
  | map (entries : List (Nat × Nat))
  deriving DecidableEq, Repr

/-- A node. -/
structure Node where
  tag : Tag
  content : Content
  deriving DecidableEq, Repr

/-- The node of a place where nothing is written. -/
def Node.nothing : Node := ⟨.null, .scalar ""⟩

instance : Inhabited Node := ⟨.nothing⟩

/-- The nodes of a document by their numbers, and the number of the outermost one. -/
structure Graph where
  nodes : Array Node
  root : Nat

namespace Graph

/-! ## §1. The state of the reader. -/

/-- The tokens ahead, the nodes so far, the names that nodes have, and the handles that tags may start
with. -/
structure Reading where
  tokens : Tokens
  nodes : Array Node := #[]
  anchors : List (String × Nat) := []
  handles : List (String × String) := [("!", "!"), ("!!", standardStart)]

/-- A step of the reader. -/
abbrev Reader := StateT Reading Read

/-- Refuse the text. -/
def fail {α : Type} : Reader α := fun _ => refuse

/-- The token ahead; there is none at the end of the text. -/
def ahead? : Reader (Option Token) := do
  let ts := (← get).tokens
  match ts.ready, ts.fault with
  | t :: _, _ => return some t
  | [], none => return none
  | [], some e => throw e

/-- Go behind the token ahead. -/
def pass : Reader Unit := modify fun r => { r with tokens := { r.tokens with ready := r.tokens.ready.tail } }

/-- Is the token ahead one of these? -/
def isAhead (ts : List Token) : Reader Bool := do
  return match ← ahead? with
    | some t => ts.contains t
    | none => false

/-- The node that an alias is. -/
def named (name : String) : Reader Nat := do
  match Assoc.get? name (← get).anchors with
  | some n => return n
  | none => fail

/-- Add a node, and give it a name that no other one has. -/
def add (name : Option String) (n : Node) : Reader Nat := do
  let r ← get
  let number := r.nodes.size
  match name with
  | none => set { r with nodes := r.nodes.push n }
  | some name =>
    if (Assoc.get? name r.anchors).isSome then fail
    set { r with nodes := r.nodes.push n, anchors := (name, number) :: r.anchors }
  return number

/-- Add the node of a place where nothing is written. -/
def addNothing : Reader Nat := add none .nothing

/-- Give a node its parts, which may be read only when it is there. -/
def fill (number : Nat) (content : Content) : Reader Nat := do
  modify fun r => { r with nodes := r.nodes.modify number fun n => { n with content := content } }
  return number

/-! ## §2. Properties. -/

/-- The name and the full tag in front of a node, in either order. -/
def properties : Reader (Option String × Option String) := do
  match ← ahead? with
  | some (.anchor name) => do
    pass
    match ← ahead? with
    | some (.tag handle suffix) => pass; return (some name, some (← full handle suffix))
    | _ => return (some name, none)
  | some (.tag handle suffix) => do
    pass
    match ← ahead? with
    | some (.anchor name) => pass; return (some name, some (← full handle suffix))
    | _ => return (none, some (← full handle suffix))
  | _ => return (none, none)
where
  full (handle : Option String) (suffix : String) : Reader String := do
    match handle with
    | none => return suffix
    | some h =>
      match Assoc.get? h (← get).handles with
      | some start => return start ++ suffix
      | none => fail

/-- The kind of a scalar.  Only plain text without a tag, or text with the tag `!`, is judged by
the way it is written. -/
def scalarTag (tag : Option String) (text : String) (isPlain : Bool) : Tag :=
  match tag with
  | none => if isPlain then .ofPlain text else .text
  | some "!" => .ofPlain text
  | some uri => .ofUri uri

/-- The kind of a list or a mapping. -/
def groupTag (tag : Option String) (standard : Tag) : Tag :=
  match tag with
  | none | some "!" => standard
  | some uri => .ofUri uri

/-! ## §3. The grammar. -/

mutual

/-- Read a node.  Blocks may start only where `inBlock` holds, and a list without indentation of
its own only where `loose` holds. -/
def node (inBlock loose : Bool) : (bound : Nat) → Reader Nat
  | 0 => fail
  | bound + 1 => do
    match ← ahead? with
    | some (.alias name) => pass; named name
    | _ =>
      let (name, tag) ← properties
      match ← ahead? with
      | some (.scalar text isPlain) =>
        pass
        add name ⟨scalarTag tag text isPlain, .scalar text⟩
      | some .listOpen => do
        pass
        let n ← add name ⟨groupTag tag .list, .list []⟩
        fill n (.list (← flowItems true bound))
      | some .mapOpen => do
        pass
        let n ← add name ⟨groupTag tag .map, .map []⟩
        fill n (.map (← flowEntries true bound))
      | some .entry =>
        if loose then
          let n ← add name ⟨groupTag tag .list, .list []⟩
          fill n (.list (← looseItems bound))
        else empty name tag
      | some .blockSequence =>
        if inBlock then
          pass
          let n ← add name ⟨groupTag tag .list, .list []⟩
          fill n (.list (← blockItems bound))
        else empty name tag
      | some .blockMapping =>
        if inBlock then
          pass
          let n ← add name ⟨groupTag tag .map, .map []⟩
          fill n (.map (← blockEntries bound))
        else empty name tag
      | _ => empty name tag
where
  /-- A name or a tag may stand alone. -/
  empty (name tag : Option String) : Reader Nat :=
    if name.isNone && tag.isNone then fail else add name ⟨scalarTag tag "" true, .scalar ""⟩

/-- The node ahead, or nothing when one of the tokens is ahead that end its place. -/
def nodeUnless (ends : List Token) (inBlock loose : Bool) : (bound : Nat) → Reader Nat
  | 0 => fail
  | bound + 1 => do
    if ← isAhead ends then addNothing else node inBlock loose bound

/-- The node behind the colon of an entry, if there is one. -/
def valueUnless (ends : List Token) (inBlock loose : Bool) : (bound : Nat) → Reader Nat
  | 0 => fail
  | bound + 1 => do
    if ← isAhead [.value] then
      pass
      nodeUnless ends inBlock loose bound
    else addNothing

/-- The items of an indented list. -/
def blockItems : (bound : Nat) → Reader (List Nat)
  | 0 => fail
  | bound + 1 => do
    if ← isAhead [.entry] then
      pass
      let item ← nodeUnless [.entry, .blockEnd] true false bound
      return item :: (← blockItems bound)
    else if ← isAhead [.blockEnd] then
      pass
      return []
    else fail

/-- The items of a list that is not indented further than the mapping around it. -/
def looseItems : (bound : Nat) → Reader (List Nat)
  | 0 => fail
  | bound + 1 => do
    if ← isAhead [.entry] then
      pass
      let item ← nodeUnless [.entry, .key, .value, .blockEnd] true false bound
      return item :: (← looseItems bound)
    else return []

/-- The entries of an indented mapping. -/
def blockEntries : (bound : Nat) → Reader (List (Nat × Nat))
  | 0 => fail
  | bound + 1 => do
    if ← isAhead [.key] then
      pass
      let key ← nodeUnless [.key, .value, .blockEnd] true true bound
      let value ← valueUnless [.key, .value, .blockEnd] true true bound
      return (key, value) :: (← blockEntries bound)
    else if ← isAhead [.blockEnd] then
      pass
      return []
    else fail

/-- The items of a list between brackets.  An entry of a mapping may stand among them. -/
def flowItems (first : Bool) : (bound : Nat) → Reader (List Nat)
  | 0 => fail
  | bound + 1 => do
    if ← isAhead [.listClose] then
      pass
      return []
    if !first then
      if ← isAhead [.comma] then pass else fail
    if ← isAhead [.key] then
      pass
      let pair ← add none ⟨.map, .map []⟩
      let key ← nodeUnless [.value, .comma, .listClose] false false bound
      let value ← valueUnless [.comma, .listClose] false false bound
      let pair ← fill pair (.map [(key, value)])
      return pair :: (← flowItems false bound)
    else if ← isAhead [.listClose] then
      pass
      return []
    else
      let item ← node false false bound
      return item :: (← flowItems false bound)

/-- The entries of a mapping between braces.  A key may stand without a value. -/
def flowEntries (first : Bool) : (bound : Nat) → Reader (List (Nat × Nat))
  | 0 => fail
  | bound + 1 => do
    if ← isAhead [.mapClose] then
      pass
      return []
    if !first then
      if ← isAhead [.comma] then pass else fail
    if ← isAhead [.key] then
      pass
      let key ← nodeUnless [.value, .comma, .mapClose] false false bound
      let value ← valueUnless [.comma, .mapClose] false false bound
      return (key, value) :: (← flowEntries false bound)
    else if ← isAhead [.mapClose] then
      pass
      return []
    else
      let key ← node false false bound
      return (key, ← addNothing) :: (← flowEntries false bound)

end

/-! ## §4. Documents. -/

/-- The handles that directives in front of a document give.  There is one version at most, and it is 1;
no handle is given twice. -/
def directives (versioned : Bool) (given : List (String × String)) :
    (bound : Nat) → Reader (List (String × String))
  | 0 => fail
  | bound + 1 => do
    match ← ahead? with
    | some (.directive (.version major)) =>
      if versioned || major != 1 then fail
      pass
      directives true given bound
    | some (.directive (.tagHandle handle uri)) =>
      if (Assoc.get? handle given).isSome then fail
      pass
      directives versioned ((handle, uri) :: given) bound
    | some (.directive .other) => pass; directives versioned given bound
    | _ => return given

/-- The bound of the recursion for so many tokens. -/
def boundFor (tokens : Tokens) : Nat := 4 * (tokens.ready.length + 1)

/-- The outermost node of a document behind the mark of its start, which may be empty. -/
def content (bound : Nat) : Reader Nat := do
  match ← ahead? with
  | none | some (.directive _) | some .documentStart | some .documentEnd => addNothing
  | some _ => node true false bound

/-- The outermost node of the first document, if there is one. -/
def document (bound : Nat) : Reader (Option Nat) := do
  match ← ahead? with
  | none => return none
  | some (.directive _) | some .documentStart =>
    let given ← directives false [] bound
    if ← isAhead [.documentStart] then pass else fail
    modify fun r => { r with handles := given ++ r.handles }
    return some (← content bound)
  | some _ => return some (← node true false bound)

/-- Behind a document there may only be marks of its end. -/
def finish : (bound : Nat) → Reader Unit
  | 0 => fail
  | bound + 1 => do
    match ← ahead? with
    | none => return
    | some .documentEnd => pass; finish bound
    | some (.directive _) =>
      let _ ← directives false [] (bound + 1)
      let _ ← ahead?
      fail
    | some _ => fail

/-- The nodes of a text that holds one document, or none. -/
def read (source : Source) : Read (Option Graph) := do
  let tokens := Token.scan source
  let bound := boundFor tokens
  let (root?, r) ← (do
    let root? ← document bound
    finish bound
    return root? : Reader (Option Nat)).run { tokens := tokens }
  return root?.map fun root => ⟨r.nodes, root⟩

end Graph

end TaintFlow.Yaml
