/-
  TaintFlow.Number.Numeral
  ────────────────────────
  Numbers written with digits, and their parts.

  The parts that a grammar is made of are written with basic digits.  `wholeIn?` and `real?` read
  a text that stands for a number as a whole: blanks may stand around it, a sign in front, and
  the digits may be those of any script.
-/
import TaintFlow.Number.Binary64
import TaintFlow.Text.Blank
import TaintFlow.Text.Digit
import TaintFlow.Text.Hex

namespace TaintFlow.Numeral

/-! ## §1. Parts of numerals. -/

/-- The greatest number of digits an integer may have. -/
def maxDigits : Nat := 4300

/-- The number written by decimal digits. -/
def decimalNumber (cs : List Char) : Nat := cs.foldl (fun n c => 10 * n + (c.toNat - 0x30)) 0

/-- The digits at the start of the characters, and the rest. -/
def spanDigits (cs : List Char) : List Char × List Char := cs.span Char.isDigit

/-- The exponent behind the digits, if there is one. -/
def spanExponent (cs : List Char) : Option Int × List Char :=
  match cs with
  | e :: rest =>
    if e = 'e' ∨ e = 'E' then
      let (negative, digits) := match rest with
        | '-' :: more => (true, more)
        | '+' :: more => (false, more)
        | more => (false, more)
      match spanDigits digits with
      | ([], _) => (none, cs)
      | (ds, more) => (some (if negative then -(decimalNumber ds : Int) else decimalNumber ds), more)
    else (none, cs)
  | [] => (none, [])

/-- The magnitude that digits with a point among them and an exponent behind them stand for.  There
is at least one digit, on either side of the point. -/
def magnitude? (negative : Bool) (cs : List Char) : Option Binary64 :=
  let (whole, rest) := spanDigits cs
  let (fraction, rest) := match rest with
    | '.' :: more => spanDigits more
    | _ => ([], rest)
  let (exponent, rest) := spanExponent rest
  if (whole ++ fraction).isEmpty || !rest.isEmpty then none
  else some (.ofDecimal negative (decimalNumber (whole ++ fraction)) (exponent.getD 0 - fraction.length))

/-! ## §2. Texts that stand for numbers. -/

/-- The blanks that may stand around a number: all but the four separators of the basic characters. -/
def isPadding (c : Char) : Bool := Text.isBlank c && !(0x1C ≤ c.toNat && c.toNat ≤ 0x1F)

/-- The characters without the blanks around them. -/
def unpadded (cs : List Char) : List Char := ((cs.dropWhile isPadding).reverse.dropWhile isPadding).reverse

/-- Whether a minus sign stands in front, and the characters behind the sign. -/
def spanSign : List Char → Bool × List Char
  | '-' :: rest => (true, rest)
  | '+' :: rest => (false, rest)
  | cs => (false, cs)

/-- The digits behind the mark of their base, if it stands in front; an underscore may follow it. -/
def unmarked (base : Nat) (cs : List Char) : List Char :=
  match cs with
  | '0' :: mark :: rest =>
    if (base = 2 ∧ mark.toLower = 'b') ∨ (base = 8 ∧ mark.toLower = 'o') ∨ (base = 16 ∧ mark.toLower = 'x') then
      match rest with
      | '_' :: digits => digits
      | digits => digits
    else cs
  | _ => cs

/-- The value of a digit in a base up to sixteen. -/
def digitIn? (base : Nat) (c : Char) : Option Nat :=
  match Text.digitValue? c, Text.hexValue? c with
  | some d, _ | none, some d => if d < base then some d else none
  | none, none => none

/-- The integer that a text stands for in a base up to sixteen, with single underscores between its
digits.  Only in the decimal base is there a limit to their number. -/
def wholeIn? (base : Nat) (cs : List Char) : Option Int :=
  let (negative, cs) := spanSign (unpadded cs)
  let groups := Text.splitChars '_' (unmarked base cs)
  if groups.any List.isEmpty || (base = 10 && maxDigits < groups.flatten.length) then none
  else
    (groups.flatten.mapM (digitIn? base)).map fun digits =>
      let n : Nat := digits.foldl (fun n d => base * n + d) 0
      if negative then -(n : Int) else n

/-- The integer that a text stands for. -/
def whole? (cs : List Char) : Option Int := wholeIn? 10 cs

/-- A digit of any script as a basic one. -/
def basicDigit (c : Char) : Char :=
  match Text.digitValue? c with
  | some d => Char.ofNat (0x30 + d)
  | none => c

/-- The number with a point that a text stands for. -/
def real? (cs : List Char) : Option Binary64 :=
  let (negative, cs) := spanSign (unpadded cs)
  match String.ofList (cs.map Char.toLower) with
  | "inf" | "infinity" => some (.infinite negative)
  | "nan" => some .undefined
  | _ => magnitude? negative (cs.map basicDigit)

end TaintFlow.Numeral
