/-
  TaintFlow.Text.Blank
  ────────────────────
  Blank characters, line breaks, and the operations that cut text at them.
-/

namespace TaintFlow.Text

/-! ## §1. Character classes. -/

/-- The characters that trimming removes: the separators and the controls that
move the pen without leaving a mark. -/
def isBlank (c : Char) : Bool :=
  let n := c.toNat
  (0x09 ≤ n && n ≤ 0x0D) || (0x1C ≤ n && n ≤ 0x20) || n == 0x85 || n == 0xA0 || n == 0x1680 ||
    (0x2000 ≤ n && n ≤ 0x200A) || n == 0x2028 || n == 0x2029 || n == 0x202F || n == 0x205F || n == 0x3000

/-- The characters that end a line. -/
def isLineBreak (c : Char) : Bool :=
  let n := c.toNat
  (0x0A ≤ n && n ≤ 0x0D) || (0x1C ≤ n && n ≤ 0x1E) || n == 0x85 || n == 0x2028 || n == 0x2029

/-! ## §2. Trimming. -/

/-- The characters without the blanks at their end. -/
def trimEndChars (cs : List Char) : List Char := (cs.reverse.dropWhile isBlank).reverse

/-- The characters without the blanks at either end. -/
def trimChars (cs : List Char) : List Char := trimEndChars (cs.dropWhile isBlank)

/-- The text without the blanks at either end. -/
def trim (s : String) : String := String.ofList (trimChars s.toList)

/-- The text without the blanks at its end. -/
def trimEnd (s : String) : String := String.ofList (trimEndChars s.toList)

/-! ## §3. Lines. -/

/-- The lines of a text without their line breaks; a carriage return with a line
feed behind it is one break, and a break at the end opens no further line. -/
def lineChars (cs : List Char) : List (List Char) := go [] cs
where
  go (current : List Char) : List Char → List (List Char)
    | [] => if current.isEmpty then [] else [current.reverse]
    | '\r' :: '\n' :: rest => current.reverse :: go [] rest
    | c :: rest => if isLineBreak c then current.reverse :: go [] rest else go (c :: current) rest

/-- The lines of a text. -/
def lines (s : String) : List String := (lineChars s.toList).map String.ofList

/-- Every carriage return, with or without a line feed behind it, becomes a line feed. -/
def unifyBreaks : List Char → List Char
  | [] => []
  | '\r' :: '\n' :: rest => '\n' :: unifyBreaks rest
  | c :: rest => (if c = '\r' then '\n' else c) :: unifyBreaks rest

/-! ## §4. Splitting at a separator. -/

/-- The pieces between the occurrences of `sep`; there is always at least one. -/
def splitChars (sep : Char) : List Char → List (List Char)
  | [] => [[]]
  | c :: rest =>
    if c = sep then [] :: splitChars sep rest
    else
      match splitChars sep rest with
      | [] => [[c]]
      | piece :: pieces => (c :: piece) :: pieces

/-- The pieces of a text between the occurrences of `sep`. -/
def split (sep : Char) (s : String) : List String := (splitChars sep s.toList).map String.ofList

/-- The texts one after the other, with `sep` between them. -/
def joinWith (sep : String) (xs : List String) : String := sep.intercalate xs

/-! ## §5. Letter case of the basic letters. -/

/-- The text with the letters `A` to `Z` in lower case. -/
def lowercase (s : String) : String := String.ofList (s.toList.map Char.toLower)

/-- Does the text end in `tail`? -/
def endsIn (s tail : String) : Bool := tail.toList.reverse.isPrefixOf s.toList.reverse

/-- Does the text start with `head`? -/
def startsWith (s head : String) : Bool := head.toList.isPrefixOf s.toList

end TaintFlow.Text
