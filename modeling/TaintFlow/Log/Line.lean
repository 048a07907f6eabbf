/-
  TaintFlow.Log.Line
  ──────────────────
  Lines of a log in the colour of their level.
-/
import TaintFlow.Log.Setting
import TaintFlow.Log.Template
import TaintFlow.Terminal

namespace TaintFlow.Log

/-- The colours of the levels by name. -/
def colours : List (String × String) :=
  [("DEBUG", Colour.blue.code), ("INFO", Colour.green.code), ("WARNING", Colour.yellow.code),
   ("ERROR", Colour.red.code), ("CRITICAL", Colour.red.code ++ Colour.bright)]

/-- The sequence that switches to the colour of a level; a level without a colour has none. -/
def colourOf (name : String) : String :=
  match colours.find? fun e => e.1 = name with
  | some e => e.2
  | none => ""

/-- A text in the colour of a level. -/
def painted (name text : String) : String := colourOf name ++ text ++ Colour.reset

/-- The line of a message. -/
def line (level : Scalar) (message : String) : String :=
  let name := levelName level
  painted name name ++ " - " ++ painted name message

end TaintFlow.Log
