/-
  TaintFlow.Log.Setting
  ─────────────────────
  The levels of a log by number and by name, and the setting of a log.
-/
import TaintFlow.Data.Display
import TaintFlow.Text.Capital

namespace TaintFlow.Log

/-! ## §1. Levels. -/

/-- The levels with a name of their own. -/
def namedLevels : List (Int × String) :=
  [(50, "CRITICAL"), (40, "ERROR"), (30, "WARNING"), (20, "INFO"), (10, "DEBUG"), (0, "NOTSET")]

/-- The words that set a level. -/
def levelWords : List (String × Int) :=
  [("CRITICAL", 50), ("FATAL", 50), ("ERROR", 40), ("WARNING", 30), ("WARN", 30), ("INFO", 20), ("DEBUG", 10),
   ("NOTSET", 0)]

/-- The name of a level, which may be a number of any kind. -/
def levelName (level : Scalar) : String :=
  match namedLevels.find? fun e => level.sameKey (.int e.1) with
  | some e => e.2
  | none => "Level " ++ level.display

/-- Why a word sets no level. -/
inductive LevelError where
  /-- There is nothing by that name. -/
  | unknownName
  /-- The name stands for a text. -/
  | isText
  /-- The name stands for a table. -/
  | isTable
  deriving DecidableEq, Repr

/-- The level that a word sets, in any letter case. -/
def levelOf (word : Datum) : Except LevelError Int :=
  match word with
  | .text s =>
    let name := Text.capitals s
    match levelWords.find? fun e => e.1 = name with
    | some e => .ok e.2
    | none => .error (if name = "BASIC_FORMAT" then .isText else if name = "_STYLES" then .isTable else .unknownName)
  | _ => .error .unknownName

/-! ## §2. Settings. -/

/-- The level of a log and the levels of what it is written to. -/
structure Setting where
  level : Int := 0
  outputs : List Int := []
  deriving DecidableEq, Repr

/-- Set the level of a log.  The first setting also opens the output, whose level stays. -/
def Setting.setup (s : Setting) (word : Datum) : Except LevelError Setting := do
  let level ← levelOf word
  return ⟨level, if s.outputs.isEmpty then [level] else s.outputs⟩

end TaintFlow.Log
