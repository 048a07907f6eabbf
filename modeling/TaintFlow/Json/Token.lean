/-
  TaintFlow.Json.Token
  ────────────────────
  The lexemes of a JSON text.

  `Token.scan` cuts a text into brackets, separators and scalars, each with the
  offset of its first character.  A lexeme that cannot be completed becomes a
  `faulty` token, which is an error only where a value or a name is expected; what
  stands behind it is of no interest and is not scanned.
-/
import TaintFlow.Data.Datum
import TaintFlow.Number.Numeral
import TaintFlow.Text.Hex

namespace TaintFlow.Json

open Text Numeral

/-! ## §1. What can be wrong with a text. -/

/-- What is wrong at a place of a text. -/
inductive Fault where
  | expectedValue
  | expectedName
  | expectedColon
  | expectedComma
  | unterminatedText
  | controlCharacter
  | unknownEscape
  | badCodeEscape
  | extraData
  | byteOrderMark
  deriving DecidableEq, Repr

/-- A lexeme. -/
inductive Token where
  | listOpen
  | listClose
  | mapOpen
  | mapClose
  | comma
  | colon
  | value (s : Scalar)
  /-- A text that does not end as it should, and where it goes wrong. -/
  | faulty (fault : Fault) (offset : Nat)
  /-- An integer with too many digits. -/
  | oversized (digits : Nat)
  /-- A character that starts no lexeme. -/
  | stray
  deriving Repr

/-- A lexeme and the offset of its first character. -/
structure Placed where
  token : Token
  offset : Nat
  deriving Repr

/-! ## §2. Texts. -/

/-- The character that a one-letter escape stands for. -/
def escaped? : Char → Option Char
  | '"' => some '"'
  | '\\' => some '\\'
  | '/' => some '/'
  | 'b' => some '\x08'
  | 'f' => some '\x0c'
  | 'n' => some '\n'
  | 'r' => some '\r'
  | 't' => some '\t'
  | _ => none

/-- Is this the first half of a surrogate pair? -/
def isHighSurrogate (n : Nat) : Bool := 0xD800 ≤ n && n ≤ 0xDBFF

/-- Is this the second half of a surrogate pair? -/
def isLowSurrogate (n : Nat) : Bool := 0xDC00 ≤ n && n ≤ 0xDFFF

/-- Read a text whose opening quote is at offset `start`, from the character at
`offset` on.  The answer is the text and the offset behind its closing quote.
The four digits of a code escape must have a character behind them, since the text
cannot end there. -/
def scanText (start : Nat) (acc : List Char) (offset : Nat) :
    List Char → Except (Fault × Nat) (List Char × Nat)
  | [] => .error (.unterminatedText, start)
  | '"' :: _ => .ok (acc.reverse, offset + 1)
  | '\\' :: 'u' :: a :: b :: c :: d :: '\\' :: 'u' :: a' :: b' :: c' :: d' :: e :: rest =>
    match hexNumber? [a, b, c, d] with
    | none => .error (.badCodeEscape, offset + 1)
    | some high =>
      if isHighSurrogate high then
        match hexNumber? [a', b', c', d'] with
        | none => .error (.badCodeEscape, offset + 7)
        | some low =>
          if isLowSurrogate low then
            scanText start (charOfCode (0x10000 + (high - 0xD800) * 0x400 + (low - 0xDC00)) :: acc)
              (offset + 12) (e :: rest)
          else
            scanText start (charOfCode high :: acc) (offset + 6)
              ('\\' :: 'u' :: a' :: b' :: c' :: d' :: e :: rest)
      else
        scanText start (charOfCode high :: acc) (offset + 6)
          ('\\' :: 'u' :: a' :: b' :: c' :: d' :: e :: rest)
  | '\\' :: 'u' :: a :: b :: c :: d :: e :: rest =>
    match hexNumber? [a, b, c, d] with
    | none => .error (.badCodeEscape, offset + 1)
    | some n => scanText start (charOfCode n :: acc) (offset + 6) (e :: rest)
  | '\\' :: 'u' :: _ => .error (.badCodeEscape, offset + 1)
  | ['\\'] => .error (.unterminatedText, start)
  | '\\' :: c :: rest =>
    match escaped? c with
    | none => .error (.unknownEscape, offset)
    | some c => scanText start (c :: acc) (offset + 2) rest
  | c :: rest =>
    if c.toNat < 0x20 then .error (.controlCharacter, offset)
    else scanText start (c :: acc) (offset + 1) rest

/-! ## §3. Numbers. -/

/-- The integer part of a number: a zero, or digits that start with another one. -/
def spanWhole : List Char → List Char × List Char
  | '0' :: rest => (['0'], rest)
  | cs => spanDigits cs

/-- The digits behind a decimal point, if there are any. -/
def spanFraction : List Char → List Char × List Char
  | '.' :: rest =>
    match spanDigits rest with
    | ([], _) => ([], '.' :: rest)
    | (ds, rest) => (ds, rest)
  | cs => ([], cs)

/-- Read an unsigned number.  A fraction or an exponent makes it a binary number.
The answer is the token and what is left. -/
def scanNumber (negative : Bool) (cs : List Char) : Token × List Char :=
  match spanWhole cs with
  | ([], _) => (.stray, [])
  | (whole, rest) =>
    let (fraction, rest) := spanFraction rest
    let (exponent, rest) := spanExponent rest
    match fraction, exponent with
    | [], none =>
      if maxDigits < whole.length then (.oversized whole.length, rest)
      else
        let n : Int := decimalNumber whole
        (.value (.int (if negative then -n else n)), rest)
    | _, _ =>
      let digits := decimalNumber (whole ++ fraction)
      (.value (.real (.ofDecimal negative digits (exponent.getD 0 - fraction.length))), rest)

/-! ## §4. The scanner. -/

/-- The words that stand for values. -/
def words : List (String × Scalar) :=
  [("null", .null), ("true", .bool true), ("false", .bool false), ("NaN", .real .undefined),
   ("Infinity", .real (.infinite false)), ("-Infinity", .real (.infinite true))]

/-- The first lexeme of the characters `c :: rest`, and the number of characters of
`rest` that belong to it. -/
def lexeme (offset : Nat) (c : Char) (rest : List Char) : Token × Nat :=
  match c with
  | '[' => (.listOpen, 0)
  | ']' => (.listClose, 0)
  | '\x7b' => (.mapOpen, 0)
  | '\x7d' => (.mapClose, 0)
  | ',' => (.comma, 0)
  | ':' => (.colon, 0)
  | '"' =>
    match scanText offset [] (offset + 1) rest with
    | .ok (text, next) => (.value (.text (String.ofList text)), next - (offset + 1))
    | .error (fault, place) => (.faulty fault place, rest.length)
  | _ =>
    match words.find? fun w => w.1.toList.isPrefixOf (c :: rest) with
    | some (word, s) => (.value s, word.length - 1)
    | none =>
      let (token, left) :=
        if c = '-' then scanNumber true rest else scanNumber false (c :: rest)
      (token, rest.length - left.length)

/-- The blanks between lexemes. -/
def isSpace (c : Char) : Bool := c == ' ' || c == '\t' || c == '\n' || c == '\r'

/-- The lexemes of the characters that start at `offset`. -/
def scan (offset : Nat) : List Char → List Placed
  | [] => []
  | c :: rest =>
    if isSpace c then scan (offset + 1) rest
    else
      let (token, more) := lexeme offset c rest
      ⟨token, offset⟩ :: scan (offset + 1 + more) (rest.drop more)
termination_by cs => cs.length
decreasing_by all_goals simp_wf; try omega

end TaintFlow.Json
