/-
  TaintFlow.Number.Arithmetic
  ───────────────────────────
  Sums and products of binary numbers, and the order of numbers of every kind.

  Each operation is exact and then rounded once.  Every finite number is a whole multiple of the
  least one, so `Quantity` compares a binary number with an integer without any rounding.
-/
import TaintFlow.Number.Binary64

namespace TaintFlow

namespace Binary64

/-! ## §1. Arithmetic. -/

/-- The number with the other sign. -/
def neg : Binary64 → Binary64
  | .finite s m e => .finite (!s) m e
  | .infinite s => .infinite !s
  | .undefined => .undefined

/-- A significand in units of two to the power `unit`, which is not above its exponent. -/
def inUnits (negative : Bool) (significand : Nat) (exponent unit : Int) : Int :=
  let n := significand * Nat.pow 2 (exponent - unit).toNat
  if negative then -(n : Int) else n

/-- The number nearest to `n * 2 ^ exponent`. -/
def ofScaled (n exponent : Int) : Binary64 :=
  let (num, den) := fraction n.natAbs exponent
  ofRatio (n < 0) num den

/-- The sum of two numbers.  A sum of zero is negative only if both parts are. -/
def add : Binary64 → Binary64 → Binary64
  | .undefined, _ | _, .undefined => .undefined
  | .infinite s, .infinite t => if s = t then .infinite s else .undefined
  | .infinite s, .finite .. | .finite .., .infinite s => .infinite s
  | .finite s m e, .finite t n f =>
    let unit := min e f
    let total := inUnits s m e unit + inUnits t n f unit
    if total = 0 then zero (s && t) else ofScaled total unit

/-- The product of two numbers. -/
def mul : Binary64 → Binary64 → Binary64
  | .undefined, _ | _, .undefined => .undefined
  | .infinite s, .infinite t => .infinite (s != t)
  | .infinite s, .finite t n _ | .finite t n _, .infinite s => if n = 0 then .undefined else .infinite (s != t)
  | .finite s m e, .finite t n f =>
    let (num, den) := fraction (m * n) (e + f)
    ofRatio (s != t) num den

end Binary64

/-! ## §2. The order of numbers. -/

/-- A number for comparison: its side of the finite numbers, and for a finite one its multiple of the
least number. -/
abbrev Quantity := Int × Int

/-- The quantity of an integer. -/
def Quantity.ofInt (n : Int) : Quantity := (0, Binary64.inUnits (n < 0) n.natAbs 0 Binary64.minExponent)

/-- The quantity of a binary number.  What is undefined comes behind all others. -/
def Quantity.ofReal : Binary64 → Quantity
  | .finite s m e => (0, Binary64.inUnits s m e Binary64.minExponent)
  | .infinite true => (-1, 0)
  | .infinite false => (1, 0)
  | .undefined => (2, 0)

end TaintFlow
