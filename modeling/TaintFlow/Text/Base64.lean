/-
  TaintFlow.Text.Base64
  ─────────────────────
  Bytes written with sixty-four characters.

  Each character is worth six bits, and an equals sign fills up a group of four.  Characters that do
  not belong to the sixty-four are passed over.
-/

namespace TaintFlow.Text

/-- What a character is worth. -/
def sextet? (c : Char) : Option Nat :=
  let n := c.toNat
  if 0x41 ≤ n ∧ n ≤ 0x5A then some (n - 0x41)
  else if 0x61 ≤ n ∧ n ≤ 0x7A then some (n - 0x61 + 26)
  else if 0x30 ≤ n ∧ n ≤ 0x39 then some (n - 0x30 + 52)
  else if c = '+' then some 62
  else if c = '/' then some 63
  else none

/-- Read a group and what follows.  `filled` counts the characters of the group so far, `carried` has the
bits that have not gone into a byte yet, and `fillers` counts the equals signs in a row.  A group
that is filled up ends the text, and the text may not end inside of one. -/
def bytesOfSextets (filled carried fillers : Nat) : List Char → Option (List UInt8)
  | [] => if filled = 0 then some [] else none
  | c :: rest =>
    if c = '=' then
      if 2 ≤ filled ∧ 4 ≤ filled + fillers + 1 then some []
      else bytesOfSextets filled carried (if 2 ≤ filled then fillers + 1 else fillers) rest
    else
      match sextet? c with
      | none => bytesOfSextets filled carried fillers rest
      | some n =>
        match filled with
        | 0 => bytesOfSextets 1 n 0 rest
        | 1 => (bytesOfSextets 2 (n % 16) 0 rest).map (UInt8.ofNat (carried * 4 + n / 16) :: ·)
        | 2 => (bytesOfSextets 3 (n % 4) 0 rest).map (UInt8.ofNat (carried * 16 + n / 4) :: ·)
        | _ => (bytesOfSextets 0 0 0 rest).map (UInt8.ofNat (carried * 64 + n) :: ·)

/-- The bytes that a text stands for. -/
def base64? (cs : List Char) : Option (List UInt8) := bytesOfSextets 0 0 0 cs

end TaintFlow.Text
