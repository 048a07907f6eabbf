/-
  TaintFlow.Report.Page
  ─────────────────────
  The report as an HTML page.

  The page is a fixed frame of markup with texts of the results in it: a head with the totals, the
  names of the patterns, and a row for every slice.
-/
import TaintFlow.Html
import TaintFlow.Report.Value

namespace TaintFlow.Report

open Html

/-! ## §1. The frame. -/

/-- The lines from the start of a page to its title. -/
def headLines : List String :=
  ["<!DOCTYPE html>",
   "<html lang=\"zh-CN\">",
   "<head>",
   "    <meta charset=\"UTF-8\">",
   "    <title>"]

/-- The lines from the title to the heading. -/
def styleLines : List String :=
  ["</title>",
   "    <style>",
   "        body \x7b font-family: -apple-system, 'Segoe UI', Roboto, sans-serif; background: #0f172a; " ++
     "color: #e2e8f0; margin: 0; \x7d",
   "        .container \x7b max-width: 1100px; margin: 0 auto; padding: 24px; \x7d",
   "        h1 \x7b color: #38bdf8; \x7d",
   "        .meta span \x7b margin-right: 24px; color: #94a3b8; \x7d",
   "        table \x7b width: 100%; border-collapse: collapse; margin-top: 20px; \x7d",
   "        th, td \x7b padding: 10px; border-bottom: 1px solid #1e293b; text-align: left; vertical-align: top; \x7d",
   "        th \x7b color: #94a3b8; \x7d",
   "        .vulnerable \x7b color: #f87171; font-weight: bold; \x7d",
   "        .safe \x7b color: #4ade80; \x7d",
   "        .error \x7b color: #facc15; \x7d",
   "        code \x7b color: #cbd5e1; \x7d",
   "    </style>",
   "</head>",
   "<body>",
   "<div class=\"container\">",
   "    <h1>"]

/-- The lines from the names of the patterns to the first row. -/
def tableLines : List String :=
  ["</p>",
   "    <table>",
   "        <tr><th>切片</th><th>结论</th><th>违反的模式</th><th>已应用的净化函数</th><th>降级</th></tr>",
   "        "]

/-- The lines behind the last row. -/
def footLines : List String :=
  ["",
   "    </table>",
   "</div>",
   "</body>",
   "</html>"]

/-- Markup of several lines. -/
def markupLines (lines : List String) : Piece := .markup (Text.joinWith "\n" lines)

/-! ## §2. The parts. -/

/-- A text of the results; what is not there leaves nothing. -/
def optionalText (d : Option Datum) : Piece := .text ((d.map Datum.display).getD "")

/-- A count of the summary; what is not there, or counts as false, is zero. -/
def countText (summary : Datum) (key : String) : Piece :=
  .text ((((summary.get? key).filter Datum.truth).getD (.int 0)).display)

/-- The texts of a value's members with commas between them; what is not there has none. -/
def joined (d : Option Datum) : Except ReportError Piece := do
  match d with
  | none => return .text ""
  | some d => return .text (Text.joinWith ", " ((← members d).map Datum.display))

/-- The counts of what was given up on. -/
def diagnosticPieces (d : Option Datum) : Except ReportError (List Piece) := do
  let es ← entries .noEntries (d.getD .null)
  return es.flatMap fun e => [.text e.1.display, .markup "=", .text e.2.display, .markup " "]

/-- The cells of a slice behind its name. -/
def cells (s : Datum) : Except ReportError (List Piece) := do
  let error := s.get? "error"
  if (error.getD .null).truth then
    return [.markup "\n            <td class=\"error\">加载失败</td><td colspan=\"3\">", optionalText error,
      .markup "</td>\n            "]
  else
    let vulnerable := (s.field "vulnerable").truth
    let patterns ← joined (s.get? "violated_patterns")
    let sanitizers ← joined (s.get? "sanitizers_applied")
    let diagnostics ← diagnosticPieces (s.get? "diagnostics")
    return [.markup "\n            <td class=\"", .markup (if vulnerable then "vulnerable" else "safe"), .markup "\">",
      .markup (if vulnerable then "存在漏洞" else "安全"), .markup "</td>\n            <td>", patterns,
      .markup "</td>\n            <td>", sanitizers, .markup "</td>\n            <td>"] ++ diagnostics ++
      [.markup "</td>\n            "]

/-- The row of a slice. -/
def row (s : Datum) : Except ReportError (List Piece) := do
  return [.markup "\n        <tr>\n            <td><code>", optionalText (s.get? "file"),
    .markup "</code></td>\n            "] ++ (← cells s) ++ [.markup "\n        </tr>\n        "]

/-- The rows of several slices. -/
def rows : List Datum → Except ReportError (List Piece)
  | [] => return []
  | s :: rest => do
    let first ← row s
    return first ++ (← rows rest)

/-! ## §3. The page. -/

/-- The pieces of the report on results. -/
def page (title date : String) (results : Datum) : Except ReportError (List Piece) := do
  let time ← seconds .notANumber (fieldD results "scan_time" (.int 0))
  let summary := fieldD results "summary" (.map [])
  let patterns ← members (fieldD results "patterns" (.list []))
  let slices ← members (fieldD results "slices" (.list []))
  let slices ← rows slices
  return [markupLines headLines, .text title, markupLines styleLines, .text title,
    .markup "</h1>\n    <div class=\"meta\">\n        <span>目标: ",
    .text (fieldD results "target" (.text "Unknown")).display, .markup "</span>\n        <span>时间: ", .text date,
    .markup "</span>\n        <span>耗时: ", .text time, .markup " 秒</span>\n        <span>切片数: ",
    .text (fieldD results "files_scanned" (.int 0)).display,
    .markup "</span>\n    </div>\n    <p>漏洞切片 <span class=\"vulnerable\">", countText summary "vulnerable_slices",
    .markup "</span> /\n       安全切片 <span class=\"safe\">", countText summary "safe_slices",
    .markup "</span> /\n       失败 <span class=\"error\">", countText summary "failed_slices",
    .markup "</span></p>\n    <p>模式: "] ++
    separated ", " (patterns.map fun p => [.markup "<code>", .text p.display, .markup "</code>"]) ++
    markupLines tableLines :: slices ++ [markupLines footLines]

end TaintFlow.Report
