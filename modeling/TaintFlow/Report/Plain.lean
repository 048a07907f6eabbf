/-
  TaintFlow.Report.Plain
  ──────────────────────
  The report as plain text: the totals, how often each pattern is violated, and the slices one by
  one.
-/
import TaintFlow.Report.Value

namespace TaintFlow.Report

/-- A line across the report. -/
def rule : String := String.ofList (List.replicate 70 '=')

/-- A heading between two lines across the report. -/
def heading (title : String) : List String := ["\n" ++ rule, title, rule]

/-- The texts of a value's members with commas between them. -/
def joinedTexts (d : Datum) : Except ReportError String := do
  let ds ← members d
  match ds.mapM Datum.text? with
  | some texts => return Text.joinWith ", " texts
  | none => throw .notTexts

/-- A line with the texts of a field, if the field counts as true. -/
def listLine (record : Datum) (key label : String) : Except ReportError (List String) := do
  let d := record.field key
  if d.truth then return [s!"    {label}: " ++ (← joinedTexts d)] else return []

/-- The lines about the slice with the given number. -/
def sliceLines (number : Nat) (record : Datum) : Except ReportError (List String) := do
  if !record.isMap then throw .notAMapping
  let file := (fieldD record "file" (.text "")).display
  let title := s!"\n[{number}] {file}"
  let error := record.field "error"
  if error.truth then return [title, s!"    错误: {error.display}"]
  let verdict := if (record.field "vulnerable").truth then "存在漏洞" else "安全"
  let patterns ← listLine record "violated_patterns" "违反的模式"
  let sanitizers ← listLine record "sanitizers_applied" "净化函数"
  return [title, s!"    结论: {verdict}"] ++ patterns ++ sanitizers

/-- The lines about slices, the first of which has the given number. -/
def slicesLines (number : Nat) : List Datum → Except ReportError (List String)
  | [] => return []
  | record :: rest => do
    let lines ← sliceLines number record
    return lines ++ (← slicesLines (number + 1) rest)

/-- The lines about the totals. -/
def summaryLines (summary : Datum) : Except ReportError (List String) := do
  if !summary.isMap then throw .notAMapping
  let count (key : String) : String := (fieldD summary key (.int 0)).display
  let vulnerable := count "vulnerable_slices"
  let safe := count "safe_slices"
  let failed := count "failed_slices"
  let byPattern ← entries .notAMapping (fieldD summary "by_pattern" (.map []))
  return heading "扫描结果摘要" ++
    [s!"漏洞切片: {vulnerable}", s!"安全切片: {safe}", s!"加载失败: {failed}"] ++
    byPattern.map fun e => "  " ++ e.1.display ++ ": " ++ e.2.display

/-- The text of the report on results. -/
def plain (title : String) (results : Datum) : Except ReportError String := do
  let target := (fieldD results "target" (.text "")).display
  let date := (fieldD results "scan_date" (.text "")).display
  let time ← seconds .textForNumber (fieldD results "scan_time" (.int 0))
  let files := (fieldD results "files_scanned" (.int 0)).display
  let head := [rule, title, rule, s!"\n扫描目标: {target}", s!"扫描时间: {date}", s!"扫描耗时: {time} 秒",
    s!"切片文件: {files} 个"]
  let summary ← summaryLines (fieldD results "summary" (.map []))
  let slices := fieldD results "slices" (.list [])
  let details ←
    if slices.truth then do
      pure (heading "切片详情" ++ (← slicesLines 1 (← members slices)))
    else pure []
  return Text.joinWith "\n" (head ++ summary ++ details)

end TaintFlow.Report
