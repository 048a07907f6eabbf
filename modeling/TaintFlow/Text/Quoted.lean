/-
  TaintFlow.Text.Quoted
  ─────────────────────
  Text between quotes, as it stands inside a written list or mapping.

  Single quotes are used unless the text has a single quote and no double
  quote.  The chosen quote, the backslash and the three common controls are
  escaped by a backslash, every other unprintable character by its number.  Bytes
  are written the same way, with a letter in front and no character beyond the basic ones.
-/
import TaintFlow.Text.Hex
import TaintFlow.Text.Printable

namespace TaintFlow.Text

/-- The quote that texts are written with. -/
def singleQuote : Char := '\x27'

/-- The quote of a text that has single quotes only. -/
def doubleQuote : Char := '\x22'

/-- One character between quotes. -/
def quoteChar (quote c : Char) : List Char :=
  if c = quote || c = '\\' then ['\\', c]
  else if c = '\n' then ['\\', 'n']
  else if c = '\t' then ['\\', 't']
  else if c = '\r' then ['\\', 'r']
  else if isPrintable c then [c]
  else if c.toNat < 0x100 then '\\' :: 'x' :: hexDigits 2 c.toNat
  else if c.toNat < 0x10000 then '\\' :: 'u' :: hexDigits 4 c.toNat
  else '\\' :: 'U' :: hexDigits 8 c.toNat

/-- The quote that a text is written with. -/
def quoteFor (cs : List Char) : Char :=
  if cs.contains singleQuote && !cs.contains doubleQuote then doubleQuote else singleQuote

/-- The text between quotes. -/
def quoted (s : String) : String :=
  let cs := s.toList
  let q := quoteFor cs
  String.ofList (q :: cs.flatMap (quoteChar q) ++ [q])

/-- One byte between quotes. -/
def quoteByte (quote : Char) (b : UInt8) : List Char :=
  if 0x7F ≤ b.toNat then '\\' :: 'x' :: hexDigits 2 b.toNat else quoteChar quote (Char.ofNat b.toNat)

/-- The bytes between quotes. -/
def quotedBytes (bytes : List UInt8) : String :=
  let q := quoteFor (bytes.map fun b => Char.ofNat b.toNat)
  String.ofList ('b' :: q :: bytes.flatMap (quoteByte q) ++ [q])

end TaintFlow.Text
