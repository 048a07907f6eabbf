/-
  TaintFlow.Report.Generate
  ─────────────────────────
  Reports as files: which ones a format asks for, and where they are written.
-/
import TaintFlow.Clock
import TaintFlow.Config
import TaintFlow.Json.Writer
import TaintFlow.Report.Page
import TaintFlow.Report.Plain

namespace TaintFlow.Report

/-- The kinds of reports. -/
inductive Format where
  | html
  | json
  | txt
  | all
  deriving DecidableEq, Repr

/-- The words for the formats. -/
def formatNames : List (String × Format) := [("html", .html), ("json", .json), ("txt", .txt), ("all", .all)]

/-- The format that a word stands for; words of other meaning stand for the data format. -/
def Format.ofName (name : String) : Format := (Assoc.get? name formatNames).getD .json

/-- The title of a report. -/
def title (config : Config) : Except ReportError String :=
  match config.store.display? config.systemName with
  | some name => .ok (name ++ " 污点分析报告")
  | none => .error .titleUnwritable

/-- The path of a report with the given ending. -/
def pathOf (directory : String) (clock : Clock) (ending : String) : String :=
  Path.join directory s!"report_{clock.stampText}.{ending}"

/-- The writing of reports: what has been written before an error stays written. -/
abbrev Writing := ExceptT ReportError (StateM Disk)

/-- Change the disk, if it can be done. -/
def change (f : Disk → Except DiskFault Disk) : Writing Unit := do
  match f (← get) with
  | .ok d => set d
  | .error fault => throw (.disk fault)

/-- Write a report, and answer with its path. -/
def write (directory : String) (clock : Clock) (ending text : String) : Writing String := do
  let path := pathOf directory clock ending
  change (·.writeText path text)
  return path

/-- Write the report as a page. -/
def writeHtml (config : Config) (clock : Clock) (results : Datum) (directory : String) : Writing String := do
  write directory clock "html" (Html.render (← page (← title config) clock.plainText results))

/-- Write the report as plain text. -/
def writeTxt (config : Config) (clock : Clock) (results : Datum) (directory : String) : Writing String := do
  write directory clock "txt" (← plain (← title config) results)

/-- Write the report as data. -/
def writeJson (clock : Clock) (results : Datum) (directory : String) : Writing String :=
  write directory clock "json" (Json.indented results)

/-- Write the reports that a format asks for into a directory, which is made if need be.  The answer
is the path of the last one. -/
def generate (config : Config) (clock : Clock) (results : Datum) (directory : String) (format : Format) :
    Writing String := do
  change (·.ensureDirectory directory)
  match format with
  | .html => writeHtml config clock results directory
  | .txt => writeTxt config clock results directory
  | .json => writeJson clock results directory
  | .all => do
    let _ ← writeHtml config clock results directory
    let _ ← writeTxt config clock results directory
    writeJson clock results directory

end TaintFlow.Report
