/-
  TaintFlow.Text.Utf8
  ───────────────────
  Characters from bytes.

  `utf8?` accepts exactly the well-formed sequences: no byte is missing, no character is written
  longer than it needs to be, and no number stands for half of a surrogate pair or lies beyond
  the last character.  `latin1` reads every byte as the character with its number.
-/

namespace TaintFlow.Text

/-- The six bits that a byte inside a sequence adds; nothing for every other byte. -/
def continuation? (b : UInt8) : Option Nat :=
  if 0x80 ≤ b.toNat ∧ b.toNat < 0xC0 then some (b.toNat - 0x80) else none

/-- The character with the given number, if its shortest sequence is not shorter than the one that
can start at `least`. -/
def charFrom? (least n : Nat) : Option Char :=
  if least ≤ n ∧ (n < 0xD800 ∨ (0xDFFF < n ∧ n < 0x110000)) then some (Char.ofNat n) else none

/-- The characters that the bytes spell. -/
def utf8? : List UInt8 → Option (List Char)
  | [] => some []
  | a :: rest =>
    let lead := a.toNat
    if lead < 0x80 then do
      return Char.ofNat lead :: (← utf8? rest)
    else if 0xC0 ≤ lead ∧ lead < 0xE0 then
      match rest with
      | b :: rest => do
        let n := (lead - 0xC0) * 64 + (← continuation? b)
        return (← charFrom? 0x80 n) :: (← utf8? rest)
      | _ => none
    else if 0xE0 ≤ lead ∧ lead < 0xF0 then
      match rest with
      | b :: c :: rest => do
        let n := ((lead - 0xE0) * 64 + (← continuation? b)) * 64 + (← continuation? c)
        return (← charFrom? 0x800 n) :: (← utf8? rest)
      | _ => none
    else if 0xF0 ≤ lead ∧ lead < 0xF8 then
      match rest with
      | b :: c :: d :: rest => do
        let n := (((lead - 0xF0) * 64 + (← continuation? b)) * 64 + (← continuation? c)) * 64 + (← continuation? d)
        return (← charFrom? 0x10000 n) :: (← utf8? rest)
      | _ => none
    else none

/-- Every byte as the character with its number. -/
def latin1 (bytes : List UInt8) : List Char := bytes.map fun b => Char.ofNat b.toNat

/-- The bytes of a text. -/
def utf8Bytes (s : String) : List UInt8 := s.toUTF8.toList

end TaintFlow.Text
