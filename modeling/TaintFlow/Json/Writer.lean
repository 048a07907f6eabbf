/-
  TaintFlow.Json.Writer
  ─────────────────────
  JSON texts of values: `compact` on one line, `indented` with one item or entry a
  line and two blanks for every level.
-/
import TaintFlow.Data.Display

namespace TaintFlow.Json

/-! ## §1. Scalars. -/

/-- One character between double quotes. -/
def escapeChar (c : Char) : List Char :=
  match c with
  | '"' => ['\\', '"']
  | '\\' => ['\\', '\\']
  | '\n' => ['\\', 'n']
  | '\r' => ['\\', 'r']
  | '\t' => ['\\', 't']
  | '\x08' => ['\\', 'b']
  | '\x0c' => ['\\', 'f']
  | c => if c.toNat < 0x20 then '\\' :: 'u' :: Text.hexDigits 4 c.toNat else [c]

/-- A text between double quotes. -/
def quote (s : String) : String := String.ofList ('"' :: s.toList.flatMap escapeChar ++ ['"'])

/-- A scalar. -/
def ofScalar : Scalar → String
  | .null => "null"
  | .bool true => "true"
  | .bool false => "false"
  | .int n => toString n
  | .real x => x.format .data
  | .text s => quote s
  | .bytes b => quote (Text.quotedBytes b)
  | .moment t => quote t.shown

/-- The name of an entry: a text as it is, any other scalar as it is written. -/
def nameText : Scalar → String
  | .text s => quote s
  | s => quote (ofScalar s)

/-! ## §2. One line. -/

mutual

/-- The value on one line. -/
def compact : Datum → String
  | .scalar s => ofScalar s
  | .list items | .tuple items => "[" ++ ",".intercalate (compactItems items) ++ "]"
  | .set members => quote (setLiteral members)
  | .shared kind _ => quote kind.dots
  | .map entries => "\x7b" ++ ",".intercalate (compactEntries entries) ++ "\x7d"

/-- The items of a list on one line. -/
def compactItems : List Datum → List String
  | [] => []
  | d :: ds => compact d :: compactItems ds

/-- The entries of a mapping on one line. -/
def compactEntries : List (Scalar × Datum) → List String
  | [] => []
  | (k, d) :: rest => (nameText k ++ ":" ++ compact d) :: compactEntries rest

end

/-! ## §3. Indented. -/

/-- A new line with the indentation of a level. -/
def newline (level : Nat) : String := String.ofList ('\n' :: List.replicate (2 * level) ' ')

/-- Parts between brackets, one a line; brackets without parts stay together. -/
def bracketed (level : Nat) (opening closing : String) (parts : List String) : String :=
  if parts.isEmpty then opening ++ closing
  else
    opening ++ newline (level + 1) ++ ("," ++ newline (level + 1)).intercalate parts ++
      newline level ++ closing

mutual

/-- The value at a level of indentation. -/
def indentedAt (level : Nat) : Datum → String
  | .scalar s => ofScalar s
  | .list items | .tuple items => bracketed level "[" "]" (indentedItems (level + 1) items)
  | .set members => quote (setLiteral members)
  | .shared kind _ => quote kind.dots
  | .map entries => bracketed level "\x7b" "\x7d" (indentedEntries (level + 1) entries)

/-- The items of a list at a level of indentation. -/
def indentedItems (level : Nat) : List Datum → List String
  | [] => []
  | d :: ds => indentedAt level d :: indentedItems level ds

/-- The entries of a mapping at a level of indentation. -/
def indentedEntries (level : Nat) : List (Scalar × Datum) → List String
  | [] => []
  | (k, d) :: rest => (nameText k ++ ": " ++ indentedAt level d) :: indentedEntries level rest

end

/-- The value with one item or entry a line. -/
def indented (d : Datum) : String := indentedAt 0 d

end TaintFlow.Json
