/-
  TaintFlow.Yaml.File
  ───────────────────
  Documents in files.

  A file is read in portions while its document is scanned.  So bytes that are no characters, and
  characters that no document may have, count only if the scan gets as far as their portion
  (`Source.ofBytes`).  The first two portions are read before the scan starts.
-/
import TaintFlow.Text.Utf8
import TaintFlow.Yaml.Value

namespace TaintFlow.Yaml

/-! ## §1. Incomplete characters. -/

/-- The number of bytes of the character that a byte starts, if it starts one of several bytes. -/
def sequenceLength? (b : UInt8) : Option Nat :=
  let n := b.toNat
  if 0xC2 ≤ n ∧ n ≤ 0xDF then some 2
  else if 0xE0 ≤ n ∧ n ≤ 0xEF then some 3
  else if 0xF0 ≤ n ∧ n ≤ 0xF4 then some 4
  else none

/-- Can the second byte of a character follow the first?  Half of a surrogate pair counts as a character
until it is complete. -/
def canFollow (first second : UInt8) : Bool :=
  let n := second.toNat
  let least := if first.toNat = 0xE0 then 0xA0 else if first.toNat = 0xF0 then 0x90 else 0x80
  let most := if first.toNat = 0xF4 then 0x8F else 0xBF
  least ≤ n && n ≤ most

/-- Are the bytes the start of a character that goes on? -/
def isIncomplete : List UInt8 → Bool
  | [] => true
  | first :: rest =>
    (sequenceLength? first).any (fun n => rest.length + 1 < n) && rest.all (fun b => (Text.continuation? b).isSome) &&
      rest.head?.all (canFollow first)

/-- The characters that bytes spell, and the bytes of an incomplete one at their end. -/
def decodeWhole (bytes : List UInt8) : Option (List Char × List UInt8) :=
  [0, 1, 2, 3].findSome? fun k =>
    let (whole, tail) := bytes.splitAt (bytes.length - k)
    if k ≤ bytes.length && tail.length == k && isIncomplete tail then (Text.utf8? whole).map fun cs => (cs, tail)
    else none

/-- The characters that bytes spell, and the bytes at their end that may belong to a character with the bytes
behind them.  A carriage return may be the first half of a line break. -/
def decodePart (bytes : List UInt8) : Option (List Char × List UInt8) :=
  (decodeWhole bytes).map fun (cs, tail) =>
    if cs.getLast? = some '\r' then (cs.dropLast, 0x0D :: tail) else (cs, tail)

/-! ## §2. Portions. -/

/-- The number of characters in a portion. -/
def portionLength : Nat := 4096

/-- The least number of bytes that are decoded at a time. -/
def blockLength : Nat := 8192

/-- The number of bytes to decode next where so many characters are missing from a portion, after
bytes and characters in the given proportion. -/
def nextBlock (missing bytes chars : Nat) : Nat :=
  max blockLength (if chars = 0 then missing else max missing (bytes * missing / chars))

/-- The number of the portion whose reading meets bytes that are no characters, and the characters
decoded before that.  `ready` counts the decoded characters that are in no portion yet; `bytes` and
`chars` are those of the last block; `tail` has the bytes of an incomplete character. -/
def badPortion : (bound portion ready bytes chars : Nat) → (done : List Char) → (tail rest : List UInt8) →
    Nat × List Char
  | 0, portion, _, _, _, done, _, _ => (portion, done)
  | bound + 1, portion, ready, bytes, chars, done, tail, rest =>
    if portionLength ≤ ready then badPortion bound (portion + 1) (ready - portionLength) bytes chars done tail rest
    else
      let (block, rest) := rest.splitAt (nextBlock (portionLength - ready) bytes chars)
      match block, decodePart (tail ++ block) with
      | [], _ | _, none => (portion, done)
      | _, some (cs, tail) =>
        let added := (Text.unifyBreaks cs).length
        badPortion bound portion (ready + added) block.length added (done ++ cs) tail rest

/-- The number of the portion that the scan of a document asks for to see the character at a place. -/
def portionAt (place : Nat) : Nat := place / portionLength

/-- The source that can be read up to a portion, where something else is met.  The portion is asked for
when the scan comes to the last character before it. -/
def Source.upTo (portion : Nat) (text : List Char) (beyond : Error) : Source :=
  ⟨if portion ≤ 1 then [] else text.take (portion * portionLength - 1), some beyond⟩

/-- The portion that holds the first character which no document may have. -/
def forbiddenPortion? (text : List Char) : Option Nat := (text.findIdx? fun c => !isAllowed c).map portionAt

/-- The source that the bytes of a file are. -/
def Source.ofBytes (bytes : List UInt8) : Source :=
  match Text.utf8? bytes with
  | some cs =>
    let text := Text.unifyBreaks cs
    match forbiddenPortion? text with
    | none => ⟨text, none⟩
    | some portion => .upTo portion text .malformed
  | none =>
    let (portion, cs) := badPortion (2 * bytes.length + 2) 0 0 0 0 [] [] bytes
    let text := (Text.unifyBreaks cs).take (portion * portionLength)
    match forbiddenPortion? text with
    | some earlier => if portion ≤ 1 then .upTo portion text .undecodable else .upTo earlier text .malformed
    | none => .upTo portion text .undecodable

end TaintFlow.Yaml
