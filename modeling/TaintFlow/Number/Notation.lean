/-
  TaintFlow.Number.Notation
  ─────────────────────────
  How binary numbers are written.

  `Layout` collects the decisions of the shortest form (when positional digits
  give way to an exponent, how the exponent looks, the words for the special
  values); `fixed` writes a given number of places, rounding the exact binary
  value with ties to even.
-/
import TaintFlow.Number.Shortest

namespace TaintFlow

namespace Binary64

/-! ## §1. The shortest form. -/

/-- The decisions of a number format. -/
structure Layout where
  /-- Positional notation needs the decimal point after more than this many digits. -/
  leastPoint : Int
  /-- Positional notation needs the decimal point after at most this many digits. -/
  greatestPoint : Int
  /-- The least number of digits of an exponent. -/
  exponentDigits : Nat
  infinity : String
  undefined : String

/-- Numbers from 0.0001 up to below 10^16 are written positionally, all others
with an exponent of two digits at least. -/
def Layout.standard : Layout :=
  { leastPoint := -4, greatestPoint := 16, exponentDigits := 2, infinity := "inf", undefined := "nan" }

/-- The words that stand in a data file for the values without digits. -/
def Layout.data : Layout := { Layout.standard with infinity := "Infinity", undefined := "NaN" }

/-- Decimal digits, with zeros in front up to the given width. -/
def padded (width n : Nat) : String :=
  let s := toString n
  String.ofList (List.replicate (width - s.length) '0') ++ s

/-- A decimal with its point after `point` digits. -/
def positional (digits : String) (point : Int) : String :=
  let cs := digits.toList
  if point ≤ 0 then "0." ++ String.ofList (List.replicate point.natAbs '0') ++ digits
  else if cs.length ≤ point.natAbs then
    digits ++ String.ofList (List.replicate (point.natAbs - cs.length) '0') ++ ".0"
  else String.ofList (cs.take point.natAbs) ++ "." ++ String.ofList (cs.drop point.natAbs)

/-- A decimal with one digit before the point and an exponent. -/
def scientific (layout : Layout) (digits : String) (exponent : Int) : String :=
  let mantissa := match digits.toList with
    | [] => "0"
    | [c] => String.ofList [c]
    | c :: cs => String.ofList (c :: '.' :: cs)
  mantissa ++ "e" ++ (if exponent < 0 then "-" else "+") ++ padded layout.exponentDigits exponent.natAbs

/-- The shortest text that reads back as the number. -/
def format (layout : Layout) : Binary64 → String
  | .undefined => layout.undefined
  | .infinite negative => (if negative then "-" else "") ++ layout.infinity
  | .finite negative 0 _ => if negative then "-0.0" else "0.0"
  | .finite negative m q =>
    let d := Decimal.shortest m q
    let digits := toString d.digits
    let point : Int := digits.length + d.exponent
    (if negative then "-" else "") ++
      (if layout.leastPoint < point ∧ point ≤ layout.greatestPoint then positional digits point
       else scientific layout digits (point - 1))

/-! ## §2. A fixed number of places. -/

/-- A natural number of `10 ^ -places` units, written with that many places. -/
def placesText (places units : Nat) : String :=
  if places = 0 then toString units
  else
    let s := (padded (places + 1) units).toList
    String.ofList (s.take (s.length - places)) ++ "." ++ String.ofList (s.drop (s.length - places))

/-- The number rounded to `places` decimal places, ties to even. -/
def fixed (places : Nat) : Binary64 → String
  | .undefined => Layout.standard.undefined
  | .infinite negative => (if negative then "-" else "") ++ Layout.standard.infinity
  | .finite negative m q =>
    let (n, d) := fraction m q
    (if negative then "-" else "") ++ placesText places (roundHalfEven (n * Nat.pow 10 places) d)

end Binary64

end TaintFlow
