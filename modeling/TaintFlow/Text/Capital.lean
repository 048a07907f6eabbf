/-
  TaintFlow.Text.Capital
  ──────────────────────
  Texts in upper case, as far as basic letters come of it.

  Besides the basic letters there are ten characters whose upper case consists of basic letters: the
  sharp and the long s, the dotless i, and joined letters.  Every other character stays as it
  is, so a text in upper case is a word of basic letters here exactly if it is one at all.
-/

namespace TaintFlow.Text

/-- The characters beyond the basic ones whose upper case consists of basic letters. -/
def joinedCapitals : List (Char × String) :=
  [('\xdf', "SS"), ('ı', "I"), ('ſ', "S"), ('ﬀ', "FF"), ('ﬁ', "FI"), ('ﬂ', "FL"),
   ('ﬃ', "FFI"), ('ﬄ', "FFL"), ('ﬅ', "ST"), ('ﬆ', "ST")]

/-- A character in upper case. -/
def capitalOf (c : Char) : List Char :=
  match joinedCapitals.find? fun e => e.1 = c with
  | some e => e.2.toList
  | none => [c.toUpper]

/-- A text in upper case. -/
def capitals (s : String) : String := String.ofList (s.toList.flatMap capitalOf)

end TaintFlow.Text
