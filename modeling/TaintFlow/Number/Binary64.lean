/-
  TaintFlow.Number.Binary64
  ─────────────────────────
  Numbers with a binary exponent, as data.

  A `Binary64` is a sign, a significand below 2^53 and an exponent not below
  -1074, or an infinity, or the undefined value.  Everything is exact `Nat`
  arithmetic: `ofRatio` rounds a quotient to the nearest representable number
  (a tie goes to the even significand, a value out of range to an infinity),
  and the reader of decimal numerals `ofDecimal` is that rounding.
-/

namespace TaintFlow

/-! ## §1. Rounding a quotient. -/

/-- The integer nearest to `num / den`; an exact tie goes to the even one. -/
def roundHalfEven (num den : Nat) : Nat :=
  let floor := num / den
  let twice := 2 * (num % den)
  if twice < den then floor
  else if twice > den then floor + 1
  else if floor % 2 = 0 then floor else floor + 1

/-- The quotient `num / (den * 2 ^ e)` as a fraction of natural numbers. -/
def scaleByPowerOfTwo (num den : Nat) (e : Int) : Nat × Nat :=
  match e with
  | .ofNat k => (num, den * Nat.pow 2 k)
  | .negSucc k => (num * Nat.pow 2 (k + 1), den)

/-- The quotient `num / (den * 10 ^ e)` as a fraction of natural numbers. -/
def scaleByPowerOfTen (num den : Nat) (e : Int) : Nat × Nat :=
  match e with
  | .ofNat k => (num, den * Nat.pow 10 k)
  | .negSucc k => (num * Nat.pow 10 (k + 1), den)

/-! ## §2. The type. -/

/-- A number of the 64-bit binary interchange format.  `finite s m e` stands for
`± m * 2 ^ e`. -/
inductive Binary64 where
  | finite (negative : Bool) (significand : Nat) (exponent : Int)
  | infinite (negative : Bool)
  | undefined
  deriving DecidableEq, Repr, Inhabited

namespace Binary64

/-- The least exponent of a finite number. -/
def minExponent : Int := -1074

/-- The greatest exponent of a finite number. -/
def maxExponent : Int := 971

/-- Zero with the given sign. -/
def zero (negative : Bool) : Binary64 := .finite negative 0 minExponent

/-- The exponent at which `num / den` has a significand of 53 bits, or the
least exponent when that is greater. -/
def exponentFor (num den : Nat) : Int :=
  let guess : Int := (Nat.log2 num : Int) - (Nat.log2 den : Int) - 53
  let (n, d) := scaleByPowerOfTwo num den guess
  max (if n / d < Nat.pow 2 53 then guess else guess + 1) minExponent

/-- The number nearest to `± num / den`. -/
def ofRatio (negative : Bool) (num den : Nat) : Binary64 :=
  if num = 0 then zero negative
  else
    let e := exponentFor num den
    let (n, d) := scaleByPowerOfTwo num den e
    let m := roundHalfEven n d
    let (m, e) := if m < Nat.pow 2 53 then (m, e) else (Nat.pow 2 52, e + 1)
    if e > maxExponent then .infinite negative else .finite negative m e

/-- The number nearest to `± digits * 10 ^ exponent`. -/
def ofDecimal (negative : Bool) (digits : Nat) (exponent : Int) : Binary64 :=
  let magnitude : Int := (Nat.toDigits 10 digits).length + exponent
  if digits = 0 ∨ magnitude < -400 then zero negative
  else if magnitude > 400 then .infinite negative
  else
    let (n, d) := scaleByPowerOfTen digits 1 (-exponent)
    ofRatio negative n d

/-- The number nearest to an integer. -/
def ofInt (n : Int) : Binary64 := ofRatio (n < 0) n.natAbs 1

/-- Zero, of either sign, is the only number that does not count as true. -/
def isZero : Binary64 → Bool
  | .finite _ m _ => m == 0
  | _ => false

/-- The magnitude of a finite number as a fraction. -/
def fraction (significand : Nat) (exponent : Int) : Nat × Nat :=
  scaleByPowerOfTwo significand 1 (-exponent)

end Binary64

end TaintFlow
