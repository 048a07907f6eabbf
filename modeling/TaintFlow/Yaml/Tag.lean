/-
  TaintFlow.Yaml.Tag
  ──────────────────
  The kinds of values in a document, and the kind that plain text has by the way it is written.

  `Tag.ofPlain` tells plain text apart: truth values in six words and three spellings, integers in
  four bases, numbers with a point, dates, and text otherwise.  The recognisers of numerals stand
  here, what the numerals mean is for `Yaml.Value`.
-/
import TaintFlow.Text.Blank

namespace TaintFlow.Yaml

/-- The kind of a value. -/
inductive Tag where
  | null
  | bool
  | int
  | real
  | text
  | bytes
  | date
  | list
  | map
  | set
  /-- A list of pairs, each of which is written as a mapping with one entry. -/
  | pairs
  /-- The key under which other mappings are merged in. -/
  | merge
  /-- The key of the value that a mapping stands for. -/
  | default
  | other (uri : String)
  deriving DecidableEq, Repr

/-! ## §1. Explicit tags. -/

/-- The start of the names of the standard kinds. -/
def standardStart : String := "tag:yaml.org,2002:"

/-- The names of the standard kinds. -/
def standardTags : List (String × Tag) :=
  [("null", .null), ("bool", .bool), ("int", .int), ("float", .real), ("str", .text), ("binary", .bytes),
   ("timestamp", .date), ("seq", .list), ("map", .map), ("set", .set), ("omap", .pairs), ("pairs", .pairs),
   ("merge", .merge), ("value", .default)]

/-- The kind with the given full name. -/
def Tag.ofUri (uri : String) : Tag :=
  match standardTags.find? fun e => standardStart ++ e.1 = uri with
  | some e => e.2
  | none => .other uri

/-! ## §2. Numerals. -/

/-- The characters behind a sign that may stand in front. -/
def unsigned : List Char → List Char
  | '+' :: rest => rest
  | '-' :: rest => rest
  | cs => cs

/-- A digit, or the underscore that may stand between digits. -/
def isLooseDigit (c : Char) : Bool := c.isDigit || c == '_'

/-- Is this a digit followed by digits and underscores? -/
def isLooseNumeral : List Char → Bool
  | [] => false
  | c :: rest => c.isDigit && rest.all isLooseDigit

/-- Is this a part of a sexagesimal numeral, a number below sixty with or without a zero in
front? -/
def isSixtieth : List Char → Bool
  | [a] => a.isDigit
  | [a, b] => '0' ≤ a && a ≤ '5' && b.isDigit
  | _ => false

/-- Is this the written form of an integer? -/
def isInteger (cs : List Char) : Bool :=
  match unsigned cs with
  | '0' :: 'b' :: rest => !rest.isEmpty && rest.all fun c => c == '0' || c == '1' || c == '_'
  | '0' :: 'x' :: rest =>
    !rest.isEmpty && rest.all fun c => isLooseDigit c || ('a' ≤ c && c ≤ 'f') || ('A' ≤ c && c ≤ 'F')
  | '0' :: rest => rest.all fun c => ('0' ≤ c && c ≤ '7') || c == '_'
  | digits =>
    match Text.splitChars ':' digits with
    | first :: parts => isLooseNumeral first && parts.all isSixtieth
    | [] => false

/-- Is this an exponent, which must have a sign, or nothing at all? -/
def isSignedExponent : List Char → Bool
  | [] => true
  | e :: sign :: rest =>
    (e == 'e' || e == 'E') && (sign == '+' || sign == '-') && !rest.isEmpty && rest.all Char.isDigit
  | _ => false

/-- Is this the written form of a number with a point? -/
def isPointed (cs : List Char) : Bool :=
  let fractionAndExponent (rest : List Char) : Bool := isSignedExponent (rest.dropWhile isLooseDigit)
  let magnitude := unsigned cs
  match magnitude with
  | '.' :: rest =>
    [".inf", ".Inf", ".INF"].contains (String.ofList magnitude) ||
      ([".nan", ".NaN", ".NAN"].contains (String.ofList cs)) ||
      (magnitude == cs && (rest.headD ' ').isDigit && fractionAndExponent rest)
  | _ =>
    let whole := magnitude.takeWhile isLooseDigit
    match magnitude.dropWhile isLooseDigit with
    | '.' :: rest => isLooseNumeral whole && fractionAndExponent rest
    | ':' :: rest =>
      match (rest.takeWhile (· ≠ '.')), (rest.dropWhile (· ≠ '.')) with
      | parts, '.' :: fraction =>
        isLooseNumeral whole && (Text.splitChars ':' parts).all isSixtieth && fraction.all isLooseDigit
      | _, _ => false
    | _ => false

/-! ## §3. Dates. -/

/-- Between `least` and `most` digits at the start of the characters, and the rest. -/
def digitsAhead (least most : Nat) (cs : List Char) : Option (List Char × List Char) :=
  let digits := (cs.take most).takeWhile Char.isDigit
  if least ≤ digits.length then some (digits, cs.drop digits.length) else none

/-- The rest behind a given character. -/
def behind? (x : Char) : List Char → Option (List Char)
  | c :: rest => if c = x then some rest else none
  | [] => none

/-- The parts of a written time of day. -/
structure ClockDigits where
  hour : List Char
  minute : List Char
  second : List Char
  fraction : List Char
  /-- The sign, the hours and the minutes of the offset; nothing but a `Z` is no sign and zero. -/
  offset : Option (Option Char × List Char × List Char)
  deriving DecidableEq, Repr

/-- The parts of a written date. -/
structure DateDigits where
  year : List Char
  month : List Char
  day : List Char
  time : Option ClockDigits
  deriving DecidableEq, Repr

/-- The offset from universal time at the end of a date, with blanks in front. -/
def offsetDigits (cs : List Char) : Option (Option (Option Char × List Char × List Char)) :=
  match cs with
  | [] => some none
  | _ =>
    match cs.dropWhile fun c => c == ' ' || c == '\t' with
    | ['Z'] => some (some (none, [], []))
    | sign :: rest =>
      if sign = '+' ∨ sign = '-' then do
        let (hours, rest) ← digitsAhead 1 2 rest
        match rest with
        | [] => some (some (some sign, hours, []))
        | _ => do
          let (minutes, rest) ← digitsAhead 2 2 (← behind? ':' rest)
          if rest.isEmpty then some (some (some sign, hours, minutes)) else none
      else none
    | [] => none

/-- The time of day at the end of a date. -/
def clockDigits (cs : List Char) : Option ClockDigits := do
  let (hour, rest) ← digitsAhead 1 2 cs
  let (minute, rest) ← digitsAhead 2 2 (← behind? ':' rest)
  let (second, rest) ← digitsAhead 2 2 (← behind? ':' rest)
  let (fraction, rest) := match rest with
    | '.' :: more => (more.takeWhile Char.isDigit, more.dropWhile Char.isDigit)
    | _ => ([], rest)
  return ⟨hour, minute, second, fraction, ← offsetDigits rest⟩

/-- The parts of a written date, with or without a time of day. -/
def dateDigits (cs : List Char) : Option DateDigits := do
  let (year, rest) ← digitsAhead 4 4 cs
  let (month, rest) ← digitsAhead 1 2 (← behind? '-' rest)
  let (day, rest) ← digitsAhead 1 2 (← behind? '-' rest)
  match rest with
  | [] => return ⟨year, month, day, none⟩
  | c :: more =>
    if c = 'T' ∨ c = 't' then return ⟨year, month, day, some (← clockDigits more)⟩
    else if c = ' ' ∨ c = '\t' then
      return ⟨year, month, day, some (← clockDigits (more.dropWhile fun c => c == ' ' || c == '\t'))⟩
    else none

/-- Is this the written form of a date?  Without a time of day the month and the day have two
digits. -/
def isDate (cs : List Char) : Bool :=
  match dateDigits cs with
  | some d => d.time.isSome || (d.month.length == 2 && d.day.length == 2)
  | none => false

/-! ## §4. Plain text. -/

/-- The words for truth values in lower case. -/
def truthWords : List (String × Bool) :=
  [("yes", true), ("no", false), ("true", true), ("false", false), ("on", true), ("off", false)]

/-- The three spellings of a word: lower case, a capital in front, upper case. -/
def spellings (word : String) : List String :=
  let capital := match word.toList with
    | c :: rest => String.ofList (c.toUpper :: rest)
    | [] => ""
  [word, capital, word.toUpper]

/-- The characters without a line feed at their end. -/
def withoutFinalBreak (cs : List Char) : List Char := if cs.getLast? = some '\n' then cs.dropLast else cs

/-- The kind of a value that is written as plain text.  A line feed at the end does not count, unless
there is nothing else. -/
def Tag.ofPlain (text : String) : Tag :=
  let cs := withoutFinalBreak text.toList
  let word := String.ofList cs
  if truthWords.any fun w => (spellings w.1).contains word then .bool
  else if isPointed cs then .real
  else if isInteger cs then .int
  else if word = "<<" then .merge
  else if text = "" ∨ word = "~" ∨ (spellings "null").contains word then .null
  else if isDate cs then .date
  else if word = "=" then .default
  else .text

end TaintFlow.Yaml
