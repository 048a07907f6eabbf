/-
  TaintFlow.Log.Template
  ──────────────────────
  Messages with places for arguments.

  A template is cut into literal characters and places (`Piece`).  A place has flags, a width, a
  precision and a letter for the form in which its argument is written; it takes the next argument,
  or the one with its name where the arguments are given by name.
-/
import TaintFlow.Data.Display
import TaintFlow.Number.Digits
import TaintFlow.Number.Numeral

namespace TaintFlow

/-- Why a template cannot be filled. -/
inductive TemplateError where
  /-- An argument is missing, left over, or of the wrong type. -/
  | wrongArgument
  /-- The template itself is malformed. -/
  | malformed
  /-- There is no argument with the name. -/
  | unknownName
  /-- A number is out of range. -/
  | outOfRange
  deriving DecidableEq, Repr

namespace Template

/-! ## §1. Pieces. -/

/-- A width or a precision: none, a number, or the next argument. -/
inductive Extent where
  | none
  | number (n : Nat)
  | argument
  deriving DecidableEq, Repr

/-- Which argument a place takes: the next one, or the one with a name.  The parentheses around a name
may be left open. -/
inductive Choice where
  | next
  | named (name : String)
  | unclosed
  deriving DecidableEq, Repr

/-- A place for an argument; a template may end before its letter. -/
structure Place where
  choice : Choice
  flags : List Char
  width : Extent
  precision : Extent
  letter : Option Char
  deriving DecidableEq, Repr

/-- A piece of a template. -/
inductive Piece where
  | literal (c : Char)
  | place (p : Place)
  deriving DecidableEq, Repr

/-- The name between parentheses, which may be nested, and the rest behind them. -/
def nameAhead : (depth : Nat) → List Char → Option (List Char × List Char)
  | _, [] => none
  | depth, ')' :: rest =>
    match depth with
    | 0 => some ([], rest)
    | depth + 1 => (nameAhead depth rest).map fun (n, r) => (')' :: n, r)
  | depth, '(' :: rest => (nameAhead (depth + 1) rest).map fun (n, r) => ('(' :: n, r)
  | depth, c :: rest => (nameAhead depth rest).map fun (n, r) => (c :: n, r)

/-- The width or the precision at the start of the characters, and the rest. -/
def extentAhead : List Char → Extent × List Char
  | '*' :: rest => (.argument, rest)
  | cs =>
    match Numeral.spanDigits cs with
    | ([], rest) => (.none, rest)
    | (digits, rest) => (.number (Numeral.decimalNumber digits), rest)

/-- The choice of an argument at the start of the characters, and the rest. -/
def choiceAhead : List Char → Choice × List Char
  | '(' :: rest =>
    match nameAhead 0 rest with
    | some (name, rest) => (.named (String.ofList name), rest)
    | none => (.unclosed, [])
  | cs => (.next, cs)

/-- The place behind a percent sign, and the rest. -/
def placeAhead (cs : List Char) : Place × List Char :=
  let (choice, cs) := choiceAhead cs
  let isFlag (c : Char) : Bool := "#0- +".toList.contains c
  let flags := cs.takeWhile isFlag
  let (width, cs) := extentAhead (cs.dropWhile isFlag)
  let (precision, cs) := match cs with
    | '.' :: rest =>
      match extentAhead rest with
      | (.none, rest) => (.number 0, rest)
      | found => found
    | _ => (.none, cs)
  let cs := match cs with
    | c :: rest => if c = 'h' ∨ c = 'l' ∨ c = 'L' then rest else cs
    | [] => []
  (⟨choice, flags, width, precision, cs.head?⟩, cs.tail)

/-- Cut a template into pieces.  Two percent signs stand for one. -/
def pieces : (bound : Nat) → List Char → List Piece
  | 0, _ | _, [] => []
  | bound + 1, '%' :: '%' :: rest => .literal '%' :: pieces bound rest
  | bound + 1, '%' :: rest =>
    let (p, rest) := placeAhead rest
    .place p :: pieces bound rest
  | bound + 1, c :: rest => .literal c :: pieces bound rest

/-! ## §2. Written forms. -/

/-- The text filled up to a width: on the right, or on the left with blanks, or with zeros behind the
sign and the base. -/
def fill (p : Place) (width : Nat) (numeric : Bool) (sign body : String) : String :=
  let missing := width - (sign.length + body.length)
  if p.flags.contains '-' then sign ++ body ++ String.ofList (List.replicate missing ' ')
  else if numeric && p.flags.contains '0' then sign ++ String.ofList (List.replicate missing '0') ++ body
  else String.ofList (List.replicate missing ' ') ++ sign ++ body

/-- The sign in front of a number. -/
def signText (p : Place) (negative : Bool) : String :=
  if negative then "-" else if p.flags.contains '+' then "+" else if p.flags.contains ' ' then " " else ""

/-- A whole number in the base of its letter. -/
def wholeText (p : Place) (letter : Char) (precision : Option Nat) (n : Int) : String × String :=
  let base := if letter = 'x' ∨ letter = 'X' then 16 else if letter = 'o' then 8 else 10
  let digits := String.ofList (Nat.toDigits base n.natAbs)
  let digits := if letter = 'X' then digits.toUpper else digits
  let digits := String.ofList (List.replicate (precision.getD 0 - digits.length) '0') ++ digits
  let mark := if p.flags.contains '#' && base ≠ 10 then String.ofList ['0', letter] else ""
  (signText p (n < 0) ++ mark, digits)

/-- The magnitude of a number in the form of its letter: the digits, and the exponent if it has one. -/
def magnitudeText (alternate : Bool) (letter : Char) (places num den : Nat) : String :=
  let (digits, exponent) := match letter.toLower with
    | 'e' => Binary64.exponential places num den
    | 'g' => Binary64.general places num den
    | _ => (Binary64.placesText places (roundHalfEven (num * Nat.pow 10 places) den), "")
  let digits :=
    if alternate then Binary64.withPoint digits
    else if letter.toLower = 'g' then Binary64.dropZeros digits
    else digits
  digits ++ exponent

/-- A number with a point in the form of its letter. -/
def pointedText (p : Place) (letter : Char) (precision : Option Nat) (x : Binary64) : String × String :=
  let (negative, body) := match x with
    | .undefined => (false, "nan")
    | .infinite negative => (negative, "inf")
    | .finite negative m e =>
      let (n, d) := Binary64.fraction m e
      (negative, magnitudeText (p.flags.contains '#') letter (precision.getD 6) n d)
  (signText p negative, if letter.isUpper then body.toUpper else body)

/-- The text with every character beyond the basic ones written by its number. -/
def basicOnly (s : String) : String :=
  String.ofList (s.toList.flatMap fun c =>
    let n := c.toNat
    if n < 0x80 then [c]
    else if n < 0x100 then '\\' :: 'x' :: Text.hexDigits 2 n
    else if n < 0x10000 then '\\' :: 'u' :: Text.hexDigits 4 n
    else '\\' :: 'U' :: Text.hexDigits 8 n)

/-- The whole part of a number. -/
def truncated : Binary64 → Except TemplateError Int
  | .undefined => .error .malformed
  | .infinite _ => .error .outOfRange
  | .finite negative m e =>
    let (n, d) := Binary64.fraction m e
    .ok (if negative then -((n / d : Nat) : Int) else (n / d : Nat))

/-- The whole number that an argument is. -/
def wholeOf (letter : Char) : Datum → Except TemplateError Int
  | .int n => .ok n
  | .bool b => .ok (if b then 1 else 0)
  | .real x =>
    if letter = 'd' ∨ letter = 'i' ∨ letter = 'u' then truncated x else .error .wrongArgument
  | _ => .error .wrongArgument

/-- The number with a point that an argument is. -/
def pointedOf : Datum → Except TemplateError Binary64
  | .int n =>
    match Binary64.ofInt n with
    | .infinite _ => .error .outOfRange
    | x => .ok x
  | .bool b => .ok (Binary64.ofInt (if b then 1 else 0))
  | .real x => .ok x
  | _ => .error .wrongArgument

/-- The character that an argument is. -/
def characterOf : Datum → Except TemplateError Char
  | .int n =>
    if 0 ≤ n ∧ n < 0x110000 then .ok (Text.charOfCode n.toNat) else .error .outOfRange
  | .bool b => .ok (Char.ofNat (if b then 1 else 0))
  | .text s =>
    match s.toList with
    | [c] => .ok c
    | _ => .error .wrongArgument
  | _ => .error .wrongArgument

/-- The argument in the form that its place asks for. -/
def written (p : Place) (letter : Char) (width : Nat) (precision : Option Nat) (d : Datum) :
    Except TemplateError String := do
  let cut (s : String) : String :=
    match precision with
    | some n => String.ofList (s.toList.take n)
    | none => s
  if letter = 's' then return fill p width false "" (cut d.display)
  else if letter = 'r' then return fill p width false "" (cut d.literal)
  else if letter = 'a' then return fill p width false "" (cut (basicOnly d.literal))
  else if "diuoxX".toList.contains letter then
    let (sign, body) := wholeText p letter precision (← wholeOf letter d)
    return fill p width true sign body
  else if "eEfFgG".toList.contains letter then
    let (sign, body) := pointedText p letter precision (← pointedOf d)
    return fill p width true sign body
  else if letter = 'c' then return fill p width false "" (String.singleton (← characterOf d))
  else throw .malformed

/-! ## §3. Filling in. -/

/-- The arguments: in a row, or by name.  Arguments by name also count as one argument in a row. -/
structure Supply where
  queue : List Datum
  named : Option Datum
  deriving Repr

/-- The next argument. -/
def Supply.next (s : Supply) : Except TemplateError (Datum × Supply) :=
  match s.queue with
  | d :: rest => .ok (d, { s with queue := rest })
  | [] => .error .wrongArgument

/-- The greatest width. -/
def widthLimit : Nat := 9223372036854775807

/-- The greatest precision. -/
def precisionLimit : Nat := 2147483647

/-- A whole number up to a limit. -/
def limited (limit : Nat) (n : Int) : Except TemplateError Int :=
  if -(limit : Int) - 1 ≤ n ∧ n ≤ limit then .ok n else .error .outOfRange

/-- A width or a precision, where a negative one has a sign. -/
def extentOf (limit : Nat) (s : Supply) : Extent → Except TemplateError (Option Int × Supply)
  | .none => .ok (none, s)
  | .number n => if n ≤ limit then .ok (some n, s) else .error .malformed
  | .argument => do
    match ← s.next with
    | (.int n, s) => return (some (← limited limit n), s)
    | (.bool b, s) => return (some (if b then 1 else 0), s)
    | _ => throw .wrongArgument

/-- The arguments with the chosen one next. -/
def Supply.choose (s : Supply) (choice : Choice) : Except TemplateError Supply :=
  match choice, s.named with
  | .next, _ => .ok s
  | _, none => .error .wrongArgument
  | .unclosed, some _ => .error .malformed
  | .named name, some d =>
    match d.get? name with
    | some value => .ok { s with queue := [value] }
    | none => .error .unknownName

/-- The text of a place, and the arguments left. -/
def placeText (p : Place) (s : Supply) : Except TemplateError (String × Supply) := do
  let s ← s.choose p.choice
  let (width, s) ← extentOf widthLimit s p.width
  let (precision, s) ← extentOf precisionLimit s p.precision
  match p.letter with
  | none => throw .malformed
  | some letter =>
    let width := width.getD 0
    let p := if width < 0 then { p with flags := '-' :: p.flags } else p
    let (d, s) ← s.next
    return (← written p letter width.natAbs (precision.map Int.toNat) d, s)

/-- The text of the pieces. -/
def fillPieces (s : Supply) : List Piece → Except TemplateError (String × Supply)
  | [] => return ("", s)
  | .literal c :: rest => do
    let (text, s) ← fillPieces s rest
    return (String.singleton c ++ text, s)
  | .place p :: rest => do
    let (first, s) ← placeText p s
    let (text, s) ← fillPieces s rest
    return (first ++ text, s)

/-- The arguments of a message: a single mapping with entries gives them by name. -/
def supplyOf (arguments : List Datum) : Supply :=
  match arguments with
  | [.map (e :: entries)] => ⟨[.map (e :: entries)], some (.map (e :: entries))⟩
  | _ => ⟨arguments, none⟩

/-- The message that a template makes of its arguments.  Without arguments it is taken as it is, and no
argument in a row may be left over. -/
def message (template : String) (arguments : List Datum) : Except TemplateError String :=
  if arguments.isEmpty then .ok template
  else do
    let chars := template.toList
    let (text, s) ← fillPieces (supplyOf arguments) (pieces (chars.length + 1) chars)
    if s.named.isNone && !s.queue.isEmpty then throw .wrongArgument
    return text

end Template

end TaintFlow
