/-
  TaintFlow.Number.Digits
  ───────────────────────
  Numbers with a fixed number of digits: one digit before the point and an exponent, or the shorter
  of the two forms.
-/
import TaintFlow.Number.Notation

namespace TaintFlow.Binary64

/-- The decimal exponent of `num / den`, which is positive: the greatest `e` with `10 ^ e` not above
it. -/
def decimalExponent (num den : Nat) : Int :=
  let guess : Int := ((Nat.toDigits 10 num).length : Int) - ((Nat.toDigits 10 den).length : Int)
  let (n, d) := scaleByPowerOfTen num den guess
  if d ≤ n then guess else guess - 1

/-- The first digits of `num / den` as a number with `places + 1` digits, rounded with ties to even,
and the exponent of the first one. -/
def leadingDigits (places num den : Nat) : Nat × Int :=
  if num = 0 then (0, 0)
  else
    let e := decimalExponent num den
    let (n, d) := scaleByPowerOfTen num den (e - places)
    let m := roundHalfEven n d
    if m < Nat.pow 10 (places + 1) then (m, e) else (m / 10, e + 1)

/-- An exponent with its sign and at least two digits. -/
def exponentText (e : Int) : String := (if e < 0 then "e-" else "e+") ++ padded 2 e.natAbs

/-- The magnitude with one digit before the point and `places` behind it, and its exponent. -/
def exponential (places num den : Nat) : String × String :=
  let (m, e) := leadingDigits places num den
  (placesText places m, exponentText e)

/-- The magnitude with `digits` digits, and its exponent; exponents from -4 on that are below `digits`
are written by the place of the point alone. -/
def general (digits num den : Nat) : String × String :=
  let digits := max digits 1
  let (m, e) := leadingDigits (digits - 1) num den
  if -4 ≤ e ∧ e < digits then
    let places := (digits - 1 - e).toNat
    (placesText places (roundHalfEven (num * Nat.pow 10 places) den), "")
  else (placesText (digits - 1) m, exponentText e)

/-- The text without the zeros at the end of its fraction, and without a point that is left alone. -/
def dropZeros (s : String) : String :=
  if s.toList.contains '.' then
    let kept := s.toList.reverse.dropWhile (· = '0')
    String.ofList (match kept with
      | '.' :: rest => rest.reverse
      | _ => kept.reverse)
  else s

/-- The text with a point in it, at its end if need be. -/
def withPoint (s : String) : String := if s.toList.contains '.' then s else s ++ "."

end TaintFlow.Binary64
