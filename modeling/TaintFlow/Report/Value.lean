/-
  TaintFlow.Report.Value
  ──────────────────────
  How reports read the results that they are given.

  Results are an object of any content, so a report may meet a value that it cannot write.
  `ReportError` tells what it expected instead.
-/
import TaintFlow.Data.Display
import TaintFlow.Files.Disk

namespace TaintFlow

/-- Why there is no report. -/
inductive ReportError where
  /-- A number is expected and something else is there. -/
  | notANumber
  /-- A number is expected and a text is there. -/
  | textForNumber
  /-- A whole number is too large to be written with places. -/
  | numberTooLarge
  /-- Something is expected whose members can be visited. -/
  | notIterable
  /-- Texts are expected. -/
  | notTexts
  /-- A mapping is expected and something else is there. -/
  | notAMapping
  /-- A mapping is expected and nothing of the kind is there. -/
  | noEntries
  /-- The name of the program is a number with too many digits, or has one in it. -/
  | titleUnwritable
  | disk (fault : DiskFault)
  deriving DecidableEq, Repr

namespace Report

/-- A number with two places, or what is wrong with a value that is none. -/
def seconds (textError : ReportError) : Datum → Except ReportError String
  | .int n =>
    match Binary64.ofInt n with
    | .infinite _ => .error .numberTooLarge
    | x => .ok (x.fixed 2)
  | .bool b => .ok ((Binary64.ofInt (if b then 1 else 0)).fixed 2)
  | .real x => .ok (x.fixed 2)
  | .text _ => .error textError
  | _ => .error .notANumber

/-- The members of a value. -/
def members (d : Datum) : Except ReportError (List Datum) :=
  match d.members? with
  | some ds => .ok ds
  | none => .error .notIterable

/-- The entries of a mapping. -/
def entries (otherwise : ReportError) : Datum → Except ReportError (List (Scalar × Datum))
  | .map es => .ok es
  | _ => .error otherwise

/-- The value under a name in a mapping, or the given one where there is none. -/
def fieldD (d : Datum) (key : String) (absent : Datum) : Datum := (d.get? key).getD absent

end Report

end TaintFlow
