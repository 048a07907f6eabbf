/-
  TaintFlow.Text.Wide
  ───────────────────
  Characters from bytes of unknown encoding.

  Text that starts with a basic character shows by its zeros how many bytes a character has and
  in which order they stand (`Encoding.of`).
-/
import TaintFlow.Text.Hex
import TaintFlow.Text.Utf8

namespace TaintFlow.Text

/-- How characters are written as bytes; `highFirst` tells the order of the bytes. -/
inductive Encoding where
  | utf8
  | utf16 (highFirst : Bool)
  | utf32 (highFirst : Bool)
  deriving DecidableEq, Repr

/-- The encoding that the first bytes of a text show. -/
def Encoding.of : List UInt8 → Encoding
  | a :: b :: c :: d :: _ =>
    if a = 0 then (if b = 0 then .utf32 true else .utf16 true)
    else if b = 0 then (if c = 0 ∧ d = 0 then .utf32 false else .utf16 false)
    else .utf8
  | [a, b] => if a = 0 then .utf16 true else if b = 0 then .utf16 false else .utf8
  | _ => .utf8

/-- The characters of two-byte units.  A character beyond the first 65536 is written as two units. -/
def charsOfUnits : List Nat → List Char
  | [] => []
  | [u] => [charOfCode u]
  | u :: v :: rest =>
    if 0xD800 ≤ u ∧ u < 0xDC00 ∧ 0xDC00 ≤ v ∧ v < 0xE000 then
      charOfCode (0x10000 + (u - 0xD800) * 0x400 + (v - 0xDC00)) :: charsOfUnits rest
    else charOfCode u :: charsOfUnits (v :: rest)

/-- The numbers that groups of bytes stand for; none if bytes are missing from the last group. -/
def unitsOf? (width : Nat) (highFirst : Bool) : List UInt8 → Option (List Nat) := go width []
where
  go : (missing : Nat) → (group : List UInt8) → List UInt8 → Option (List Nat)
    | missing, _, [] => if missing = width then some [] else none
    | missing, group, b :: rest =>
      if missing ≤ 1 then
        let bytes := if highFirst then (b :: group).reverse else b :: group
        (go width [] rest).map (bytes.foldl (fun n x => n * 256 + x.toNat) 0 :: ·)
      else go (missing - 1) (b :: group) rest

/-- The characters that bytes in an encoding spell. -/
def decode? (e : Encoding) (bytes : List UInt8) : Option (List Char) :=
  match e with
  | .utf8 => utf8? bytes
  | .utf16 highFirst => (unitsOf? 2 highFirst bytes).map charsOfUnits
  | .utf32 highFirst => do
    let codes ← unitsOf? 4 highFirst bytes
    if codes.all (· < 0x110000) then some (codes.map charOfCode) else none

end TaintFlow.Text
