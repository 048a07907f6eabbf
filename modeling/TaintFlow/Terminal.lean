/-
  TaintFlow.Terminal
  ──────────────────
  Colours on a terminal.
-/

namespace TaintFlow

/-- The colours that are used. -/
inductive Colour where
  | red
  | green
  | yellow
  | blue
  | cyan
  | white
  deriving DecidableEq, Repr

namespace Colour

/-- The sequence that switches to a colour. -/
def code : Colour → String
  | .red => "\x1b[31m"
  | .green => "\x1b[32m"
  | .yellow => "\x1b[33m"
  | .blue => "\x1b[34m"
  | .cyan => "\x1b[36m"
  | .white => "\x1b[37m"

/-- The sequence that switches to bright letters. -/
def bright : String := "\x1b[1m"

/-- The sequence that ends colours and bright letters. -/
def reset : String := "\x1b[0m"

/-- A text in a colour. -/
def paint (c : Colour) (s : String) : String := c.code ++ s ++ reset

end Colour

end TaintFlow
