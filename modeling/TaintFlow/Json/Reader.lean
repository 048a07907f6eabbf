/-
  TaintFlow.Json.Reader
  ─────────────────────
  From the lexemes of a JSON text to its value.

  The reader takes one lexeme at a time.  Its state is what it expects next and the
  stack of the lists and mappings that are still open, so the depth of a text is the
  length of that stack.  `read` is the fold of `step` over the lexemes, followed by
  the check that a value has been completed.
-/
import TaintFlow.Json.Token

namespace TaintFlow.Json

/-! ## §1. Errors. -/

/-- Line and column count from one, the offset from zero. -/
structure Position where
  line : Nat
  column : Nat
  offset : Nat
  deriving DecidableEq, Repr

/-- The position of an offset in a text. -/
def Position.of (text : List Char) (offset : Nat) : Position :=
  let before := text.take offset
  { line := before.count '\n' + 1,
    column := (before.reverse.takeWhile (· != '\n')).length + 1,
    offset := offset }

/-- Why a text has no value. -/
inductive Error where
  | malformed (fault : Fault) (place : Position)
  | oversizedInteger (digits : Nat)
  | tooDeep
  deriving DecidableEq, Repr

/-- The wording of a fault. -/
def Fault.message : Fault → String
  | .expectedValue => "Expecting value"
  | .expectedName => "Expecting property name enclosed in double quotes"
  | .expectedColon => "Expecting ':' delimiter"
  | .expectedComma => "Expecting ',' delimiter"
  | .unterminatedText => "Unterminated string starting at"
  | .controlCharacter => "Invalid control character at"
  | .unknownEscape => "Invalid \\escape"
  | .badCodeEscape => "Invalid \\uXXXX escape"
  | .extraData => "Extra data"
  | .byteOrderMark => "Unexpected UTF-8 BOM (decode using utf-8-sig)"

/-- The wording of an error. -/
def Error.message : Error → String
  | .malformed fault place =>
    s!"{fault.message}: line {place.line} column {place.column} (char {place.offset})"
  | .oversizedInteger digits =>
    s!"Exceeds the limit ({Numeral.maxDigits} digits) for integer string conversion: value has {digits} digits; " ++
      "use sys.set_int_max_str_digits() to increase the limit"
  | .tooDeep => "nested too deeply"

/-! ## §2. The state. -/

/-- A list or a mapping whose closing bracket has not come yet. -/
inductive Frame where
  /-- A list with the items so far, the newest first. -/
  | items (newest : List Datum)
  /-- A mapping between two entries. -/
  | entries (done : List (Scalar × Datum))
  /-- A mapping that waits for the value of `name`. -/
  | entry (done : List (Scalar × Datum)) (name : String)
  deriving Repr

/-- What may come next. -/
inductive Expectation where
  | value
  | valueOrClose
  | name
  | nameOrClose
  | colon
  | separator
  | nothing (result : Datum)
  deriving Repr

/-- The open lists and mappings, the innermost first, and what may come next. -/
structure State where
  stack : List Frame
  expects : Expectation
  deriving Repr

/-- A reader waits for a value, inside of nothing. -/
def State.start : State := ⟨[], .value⟩

/-- What stops the reader: a fault at an offset, or a limit. -/
inductive Stop where
  | fault (fault : Fault) (offset : Nat)
  | oversized (digits : Nat)
  | depth

/-! ## §3. One lexeme. -/

/-- The state after a value has been completed inside of `stack`. -/
def State.deliver (d : Datum) : List Frame → State
  | [] => ⟨[], .nothing d⟩
  | .items newest :: rest => ⟨.items (d :: newest) :: rest, .separator⟩
  | .entry done name :: rest => ⟨.entries (Assoc.put (.text name) d done) :: rest, .separator⟩
  | .entries done :: rest => ⟨.entries done :: rest, .separator⟩

/-- Open a list or a mapping, if that is not too deep. -/
def State.enter (limit : Nat) (frame : Frame) (expects : Expectation) (stack : List Frame) :
    Except Stop State :=
  if stack.length < limit then .ok ⟨frame :: stack, expects⟩ else .error .depth

/-- A lexeme where a value is expected. -/
def State.onValue (limit : Nat) (stack : List Frame) (t : Placed) : Except Stop State :=
  match t.token with
  | .value s => .ok (deliver (.scalar s) stack)
  | .listOpen => State.enter limit (.items []) .valueOrClose stack
  | .mapOpen => State.enter limit (.entries []) .nameOrClose stack
  | .faulty fault offset => .error (.fault fault offset)
  | .oversized digits => .error (.oversized digits)
  | _ => .error (.fault .expectedValue t.offset)

/-- A lexeme where the name of an entry is expected. -/
def State.onName (stack : List Frame) (t : Placed) : Except Stop State :=
  match t.token, stack with
  | .value (.text name), .entries done :: rest => .ok ⟨.entry done name :: rest, .colon⟩
  | .faulty fault offset, _ => .error (.fault fault offset)
  | _, _ => .error (.fault .expectedName t.offset)

/-- A lexeme behind a value of a list or mapping. -/
def State.onSeparator (stack : List Frame) (t : Placed) : Except Stop State :=
  match t.token, stack with
  | .comma, .items _ :: _ => .ok ⟨stack, .value⟩
  | .comma, .entries _ :: _ => .ok ⟨stack, .name⟩
  | .listClose, .items newest :: rest => .ok (deliver (.list newest.reverse) rest)
  | .mapClose, .entries done :: rest => .ok (deliver (.map done) rest)
  | _, _ => .error (.fault .expectedComma t.offset)

/-- Take one lexeme. -/
def step (limit : Nat) (s : State) (t : Placed) : Except Stop State :=
  match s.expects with
  | .value => State.onValue limit s.stack t
  | .valueOrClose =>
    match t.token, s.stack with
    | .listClose, _ :: rest => .ok (State.deliver (.list []) rest)
    | _, stack => State.onValue limit stack t
  | .name => State.onName s.stack t
  | .nameOrClose =>
    match t.token, s.stack with
    | .mapClose, _ :: rest => .ok (State.deliver (.map []) rest)
    | _, stack => State.onName stack t
  | .colon =>
    match t.token with
    | .colon => .ok ⟨s.stack, .value⟩
    | _ => .error (.fault .expectedColon t.offset)
  | .separator => State.onSeparator s.stack t
  | .nothing _ => .error (.fault .extraData t.offset)

/-- The value of a finished text, or what is missing at its end. -/
def finish (s : State) : Except Fault Datum :=
  match s.expects with
  | .nothing d => .ok d
  | .value | .valueOrClose => .error .expectedValue
  | .name | .nameOrClose => .error .expectedName
  | .colon => .error .expectedColon
  | .separator => .error .expectedComma

/-! ## §4. The reader. -/

/-- The value of a text, or the fault and its offset. -/
def readChars (limit : Nat) (text : List Char) : Except Stop Datum :=
  if text.head? = some '\ufeff' then .error (.fault .byteOrderMark 0)
  else
    match (scan 0 text).foldlM (step limit) State.start with
    | .error e => .error e
    | .ok s =>
      match finish s with
      | .ok d => .ok d
      | .error fault => .error (.fault fault text.length)

/-- The value of a JSON text in which no more than `limit` lists and mappings stand
inside of one another. -/
def read (limit : Nat) (text : String) : Except Error Datum :=
  match readChars limit text.toList with
  | .ok d => .ok d
  | .error (.fault fault offset) => .error (.malformed fault (.of text.toList offset))
  | .error (.oversized digits) => .error (.oversizedInteger digits)
  | .error .depth => .error .tooDeep

end TaintFlow.Json
