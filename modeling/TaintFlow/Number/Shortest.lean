/-
  TaintFlow.Number.Shortest
  ─────────────────────────
  The shortest decimal that reads back as a given binary number.

  The reals that round to `m * 2 ^ q` form an interval around it (its ends
  belong to it exactly when `m` is even).  For one digit, two digits, … up to
  seventeen, the value's two neighbours on that decimal grid are tested; the
  first grid with a hit wins, and of two hits the nearer.
-/
import TaintFlow.Number.Binary64

namespace TaintFlow

/-- A positive decimal `digits * 10 ^ exponent`. -/
structure Decimal where
  digits : Nat
  exponent : Int
  deriving DecidableEq, Repr

namespace Decimal

/-! ## §1. Size of a fraction. -/

/-- The number of decimal digits of a natural number. -/
def digitCount (n : Nat) : Nat := (Nat.toDigits 10 n).length

/-- The least `k` with `num / den < 10 ^ k`, for a positive fraction. -/
def magnitude (num den : Nat) : Int :=
  if den ≤ num then digitCount (num / den)
  else 1 - (leadingZeros 400 num : Int)
where
  /-- How often the fraction has to be multiplied by ten to reach one. -/
  leadingZeros : Nat → Nat → Nat
    | 0, _ => 0
    | fuel + 1, n => if den ≤ n then 0 else leadingZeros fuel (n * 10) + 1

/-- The same value without trailing zeros in `digits`. -/
def normalize (d : Decimal) : Decimal :=
  go (digitCount d.digits) d
where
  go : Nat → Decimal → Decimal
    | 0, d => d
    | fuel + 1, d =>
      if d.digits % 10 = 0 ∧ d.digits ≠ 0 then go fuel ⟨d.digits / 10, d.exponent + 1⟩ else d

/-! ## §2. The rounding interval. -/

/-- The reals that round to one binary number, scaled so that the value is
`value / scale`, the lower end `low / scale` and the upper end `high / scale`. -/
structure Interval where
  value : Nat
  low : Nat
  high : Nat
  scale : Nat
  closed : Bool

/-- The interval of `m * 2 ^ q`.  Below a power of two the numbers lie twice as
dense, so the lower end is half as far away. -/
def Interval.of (m : Nat) (q : Int) : Interval :=
  let lowerGap := if m = Nat.pow 2 52 ∧ q > Binary64.minExponent then 1 else 2
  let (unit, scale) := scaleByPowerOfTwo 1 4 (-q)
  { value := 4 * m * unit, low := (4 * m - lowerGap) * unit, high := (4 * m + 2) * unit,
    scale := scale, closed := m % 2 == 0 }

/-- Does `n * 10 ^ e` lie in the interval? -/
def Interval.contains (i : Interval) (n : Nat) (e : Int) : Bool :=
  let (x, d) := scaleByPowerOfTen n 1 (-e)
  let x := x * i.scale
  if i.closed then i.low * d ≤ x && x ≤ i.high * d else i.low * d < x && x < i.high * d

/-- The neighbour of the value on the grid `10 ^ e` that lies in the interval,
the nearer one when both do. -/
def Interval.hit (i : Interval) (e : Int) : Option Nat :=
  let (x, d) := scaleByPowerOfTen i.value i.scale e
  let below := x / d
  match i.contains below e && below != 0, i.contains (below + 1) e with
  | true, true => some (if 2 * (x % d) < d || (2 * (x % d) == d && below % 2 == 0) then below else below + 1)
  | true, false => some below
  | false, true => some (below + 1)
  | false, false => none

/-! ## §3. The search. -/

/-- The shortest decimal that rounds to the positive number `m * 2 ^ q`. -/
def shortest (m : Nat) (q : Int) : Decimal :=
  let i := Interval.of m q
  let k := magnitude i.value i.scale
  let grids := (List.range 17).map fun n => k - (n + 1 : Nat)
  match grids.findSome? fun e => (i.hit e).map fun n => (⟨n, e⟩ : Decimal) with
  | some d => d.normalize
  | none => ⟨m, q⟩

end Decimal

end TaintFlow
