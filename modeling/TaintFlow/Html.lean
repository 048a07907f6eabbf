/-
  TaintFlow.Html
  ──────────────
  Pages made of markup and text.

  Markup is written as it is; text goes through `escape`, so none of its characters can be taken
  for markup.  Only `render` makes one text of the pieces.
-/
import TaintFlow.Text.Blank

namespace TaintFlow.Html

/-- A character of text on a page. -/
def escapeChar (c : Char) : List Char :=
  if c = '&' then "&amp;".toList
  else if c = '<' then "&lt;".toList
  else if c = '>' then "&gt;".toList
  else if c = '\x27' then "&#39;".toList
  else if c = '\x22' then "&#34;".toList
  else [c]

/-- A text as it stands on a page. -/
def escape (s : String) : String := String.ofList (s.toList.flatMap escapeChar)

/-- A piece of a page. -/
inductive Piece where
  | markup (s : String)
  | text (s : String)
  deriving DecidableEq, Repr

/-- A piece as it stands on a page. -/
def Piece.render : Piece → String
  | .markup s => s
  | .text s => escape s

/-- The page that the pieces make. -/
def render (pieces : List Piece) : String := Text.joinWith "" (pieces.map Piece.render)

/-- Groups of pieces with a piece of markup between them. -/
def separated (between : String) : List (List Piece) → List Piece
  | [] => []
  | [group] => group
  | group :: rest => group ++ .markup between :: separated between rest

end TaintFlow.Html
