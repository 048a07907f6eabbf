/-
  TaintFlow.Command.Arguments
  ───────────────────────────
  The arguments of the command line.

  Each argument is first told apart by the way it is written (`Word`): an option under its name or
  an unambiguous beginning of it, with or without a value attached, or a plain word.  Everything
  behind `--` is plain.  Then the words are taken in order; the first one that cannot be taken ends
  the reading, and so does the wish for help.
-/
import TaintFlow.Analysis.Options
import TaintFlow.Number.Numeral
import TaintFlow.Report.Generate
import TaintFlow.Text.Digit

namespace TaintFlow.Command

/-! ## §1. Options. -/

/-- The options of the program. -/
inductive Switch where
  | help
  | patterns
  | config
  | output
  | format
  | blockStrategy
  | legacyNarrowing
  | failOnVulnerable
  | verbose
  | web
  | port
  deriving DecidableEq, Repr

/-- The names of the options. -/
def switchNames : List (String × Switch) :=
  [("-h", .help), ("--help", .help), ("-p", .patterns), ("--patterns", .patterns), ("-c", .config),
   ("--config", .config), ("-o", .output), ("--output", .output), ("-f", .format), ("--format", .format),
   ("--block-strategy", .blockStrategy), ("--legacy-narrowing", .legacyNarrowing),
   ("--fail-on-vulnerable", .failOnVulnerable), ("-v", .verbose), ("--verbose", .verbose), ("--web", .web),
   ("--port", .port)]

/-- Does the option have a value? -/
def Switch.takesValue : Switch → Bool
  | .patterns | .config | .output | .format | .blockStrategy | .port => true
  | _ => false

/-- What the command line asks for. -/
structure Arguments where
  target : Option String := none
  patterns : Option String := none
  config : String := "config.yaml"
  output : Option String := none
  format : Report.Format := .json
  blockStrategy : Option BlockStrategy := none
  legacyNarrowing : Bool := false
  failOnVulnerable : Bool := false
  verbose : Bool := false
  web : Bool := false
  /-- The port of the service; nothing where the command line takes the standard one away. -/
  port : Option Int := some 5000
  deriving Repr

/-- What ends the reading of a command line. -/
inductive Stop where
  | help
  | usage
  deriving DecidableEq, Repr

/-! ## §2. Words. -/

/-- An argument as it is written. -/
inductive Word where
  | plain (s : String)
  /-- The mark `--`. -/
  | mark
  /-- A short option and the characters attached to it. -/
  | short (s : Switch) (attached : Option (List Char))
  /-- A long option and the value behind its equals sign. -/
  | long (s : Switch) (value : Option String)
  /-- Something that looks like an option and is none. -/
  | unknown
  deriving DecidableEq, Repr

/-- The short option of a letter. -/
def shortSwitch? (c : Char) : Option Switch := Assoc.get? (String.ofList ['-', c]) switchNames

/-- The long options that a beginning of a name stands for; a full name stands for itself. -/
def longSwitches (start : String) : List Switch :=
  match Assoc.get? start switchNames with
  | some s => [s]
  | none => (switchNames.filter fun e => Text.startsWith e.1 start).map (·.2)

/-- A long option with the text behind its first equals sign. -/
def splitAtEquals (s : String) : String × Option String :=
  match s.toList.dropWhile (· ≠ '=') with
  | _ :: rest => (String.ofList (s.toList.takeWhile (· ≠ '=')), some (String.ofList rest))
  | [] => (s, none)

/-- Are the characters those of a number behind its sign: digits, perhaps with a point among them that
has a digit behind it?  A line feed at the end does not count. -/
def isNumber (cs : List Char) : Bool :=
  let cs := if cs.getLast? = some '\n' then cs.dropLast else cs
  let whole := cs.takeWhile Text.isAnyDigit
  match cs.dropWhile Text.isAnyDigit with
  | [] => !whole.isEmpty
  | '.' :: fraction => !fraction.isEmpty && fraction.all Text.isAnyDigit
  | _ => false

/-- The characters attached to a short option; an equals sign between them and the letter does not
count. -/
def attachedTo : (behind : List Char) → Option (List Char)
  | [] => none
  | '=' :: rest => some rest
  | cs => some cs

/-- An argument in front of the mark `--`. -/
def wordOf (arg : String) : Except Stop Word :=
  match arg.toList with
  | '-' :: '-' :: behind =>
    let (start, value) := splitAtEquals arg
    match longSwitches start with
    | [s] => .ok (.long s value)
    | [] => .ok (if behind.contains ' ' then .plain arg else .unknown)
    | _ => .error .usage
  | '-' :: c :: behind =>
    match shortSwitch? c with
    | some s => .ok (.short s (attachedTo behind))
    | none => .ok (if isNumber (c :: behind) || (c :: behind).contains ' ' then .plain arg else .unknown)
  | _ => .ok (.plain arg)

/-- The words of a command line. -/
def words : List String → Except Stop (List Word)
  | [] => return []
  | "--" :: rest => return .mark :: rest.map .plain
  | arg :: rest => do
    let w ← wordOf arg
    return w :: (← words rest)

/-! ## §3. Values. -/

/-- The block strategies by name. -/
def strategyNames : List (String × BlockStrategy) := [("first", .first), ("all", .all)]

/-- Take an option with its value. -/
def Arguments.withValue (a : Arguments) (s : Switch) (value : String) : Except Stop Arguments :=
  match s with
  | .patterns => .ok { a with patterns := some value }
  | .config => .ok { a with config := value }
  | .output => .ok { a with output := some value }
  | .format =>
    match Assoc.get? value Report.formatNames with
    | some f => .ok { a with format := f }
    | none => .error .usage
  | .blockStrategy =>
    match Assoc.get? value strategyNames with
    | some b => .ok { a with blockStrategy := some b }
    | none => .error .usage
  | .port =>
    match Numeral.whole? value.toList with
    | some n => .ok { a with port := some n }
    | none => .error .usage
  | _ => .error .usage

/-- Take an option whose value is the mark `--`, which counts as no value at all: what the option was
given before is forgotten. -/
def Arguments.withoutValue (a : Arguments) : Switch → Arguments
  | .patterns => { a with patterns := none }
  | .config => { a with config := "" }
  | .output => { a with output := none }
  | .format => { a with format := .json }
  | .blockStrategy => { a with blockStrategy := none }
  | .port => { a with port := none }
  | _ => a

/-- Take an option with the value attached to it. -/
def Arguments.withAttached (a : Arguments) (s : Switch) (value : String) : Except Stop Arguments :=
  if value = "--" then .ok (a.withoutValue s) else a.withValue s value

/-- Take an option without a value. -/
def Arguments.withFlag (a : Arguments) (s : Switch) : Except Stop Arguments :=
  match s with
  | .help => .error .help
  | .legacyNarrowing => .ok { a with legacyNarrowing := true }
  | .failOnVulnerable => .ok { a with failOnVulnerable := true }
  | .verbose => .ok { a with verbose := true }
  | .web => .ok { a with web := true }
  | _ => .error .usage

/-- Take several options without values. -/
def Arguments.withFlags (a : Arguments) (ss : List Switch) : Except Stop Arguments := ss.foldlM withFlag a

/-! ## §4. Clusters. -/

/-- What one written option comes to: options without values, and perhaps one with a value behind
them; where that is not attached, the next word is the value. -/
structure Cluster where
  flags : List Switch := []
  last : Option (Switch × Option String) := none

/-- The options that a short option and the characters attached to it stand for.  Behind an option
without a value each letter is an option again. -/
def cluster (taken : List Switch) (s : Switch) : List Char → Except Stop Cluster
  | [] => .ok (if s.takesValue then ⟨taken.reverse, some (s, none)⟩ else ⟨(s :: taken).reverse, none⟩)
  | c :: behind =>
    if s.takesValue then .ok ⟨taken.reverse, some (s, some (String.ofList (c :: behind)))⟩
    else
      match shortSwitch? c with
      | some next => cluster (s :: taken) next behind
      | none => .error .usage

/-- The options that an option with an attached text stands for. -/
def attachedCluster (s : Switch) (text : String) : Except Stop Cluster :=
  if s.takesValue then .ok ⟨[], some (s, some text)⟩ else .error .usage

/-- The options that a written option stands for; something that is no option stands for none. -/
def Word.cluster? : Word → Option (Except Stop Cluster)
  | .short s none => some (cluster [] s [])
  | .short s (some []) => some (attachedCluster s "")
  | .short s (some cs) => some (cluster [] s cs)
  | .long s none => some (cluster [] s [])
  | .long s (some value) => some (attachedCluster s value)
  | .unknown => some (.ok {})
  | .plain _ | .mark => none

/-! ## §5. Reading. -/

/-- The state of the reading: the arguments so far, whether the target has been met, and whether
there is a word that nothing asks for. -/
structure Reading where
  arguments : Arguments := {}
  targetMet : Bool := false
  extra : Bool := false

/-- Is the word an option, known or not? -/
def Word.isOption : Word → Bool
  | .plain _ | .mark => false
  | _ => true

/-- The texts of the words from the target on, where no option follows: blank marks, at most one plain
word, marks. -/
def targetAmong : List Word → Option String × List Word
  | .mark :: .plain s :: rest => (some s, rest)
  | .mark :: rest => (none, rest)
  | .plain s :: .mark :: rest => (some s, rest)
  | .plain s :: rest => (some s, rest)
  | rest => (none, rest)

/-- Take the words at the end, where no option follows. -/
def readRest (r : Reading) (ws : List Word) : Reading :=
  if r.targetMet then { r with extra := r.extra || !ws.isEmpty }
  else
    let (target, rest) := targetAmong ws
    { r with arguments := { r.arguments with target := target }, targetMet := true, extra := r.extra || !rest.isEmpty }

/-- Take a cluster; an option that has no value yet takes the word behind, which has to be plain. -/
def readCluster (r : Reading) (behind : List Word) (c : Cluster) : Except Stop (Reading × List Word) :=
  match c.last, behind with
  | none, _ => do return ({ r with arguments := ← r.arguments.withFlags c.flags }, behind)
  | some (s, some value), _ => do
    let a ← r.arguments.withFlags c.flags
    return ({ r with arguments := ← a.withAttached s value }, behind)
  | some (s, none), .plain value :: rest => do
    let a ← r.arguments.withFlags c.flags
    return ({ r with arguments := ← a.withValue s value }, rest)
  | some (_, none), _ => .error .usage

/-- Take a word that is not an option. -/
def readPlain (r : Reading) : Word → Reading
  | .plain s =>
    if r.targetMet then { r with extra := true }
    else { r with arguments := { r.arguments with target := some s }, targetMet := true }
  | _ => { r with extra := true }

/-- Take words until none is left. -/
def read : (bound : Nat) → Reading → List Word → Except Stop Reading
  | 0, r, _ => .ok r
  | bound + 1, r, ws =>
    if !ws.any Word.isOption then .ok (readRest r ws)
    else
      match ws with
      | [] => .ok r
      | w :: behind =>
        match w.cluster? with
        | none => read bound (readPlain r w) behind
        | some c => do
          let (r, rest) ← readCluster { r with extra := r.extra || w == .unknown } behind (← c)
          read bound r rest

/-- The arguments of a command line. -/
def Arguments.parse (argv : List String) : Except Stop Arguments := do
  let ws ← words argv
  let r ← read (ws.length + 1) {} ws
  if r.extra then throw .usage
  return r.arguments

end TaintFlow.Command
