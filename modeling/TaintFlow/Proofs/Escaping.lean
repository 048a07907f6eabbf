/-
  TaintFlow.Proofs.Escaping
  ─────────────────────────
  **What results cannot do to the page that shows them.**

  Three characters delimit tags and the values in them: the marks.  Text on a page is escaped and
  has no marks, so the marks of a page are those of its markup.  Which markup a report has depends on
  how many patterns and slices there are and on which slices have an error, and on nothing else: not
  on any name or message, and not on the verdicts.

    • `marks_render` — the marks of a page are those of its markup,
    • `IsScanResult` — what a report expects of the results; `isScanResult_results` says that scans
      meet it,
    • `Alike` — two attempts both succeed, with the same marks,
    • `cells_alike`, `row_alike`, `rows_alike`, `page_alike` — the parts of two reports are alike,
    • `page_marks_withstand_texts` — the marks of a report withstand whatever the texts contain.
-/
import Mathlib.Data.List.Forall2
import TaintFlow.Report.Generate
import TaintFlow.Scan

namespace TaintFlow

/-! ## §1. Marks. -/

namespace Html

/-- Is the character one of those that delimit tags and the values in them? -/
def isMark (c : Char) : Bool := c == '<' || c == '>' || c == '\x22'

/-- The marks of a text, in order. -/
def marks (s : String) : List Char := s.toList.filter isMark

/-- The marks of a piece of a page; text has none. -/
def Piece.marks : Piece → List Char
  | .markup s => Html.marks s
  | .text _ => []

theorem filter_escapeChar (c : Char) : (escapeChar c).filter isMark = [] := by
  unfold escapeChar
  split_ifs with _ hopen hclose _ hquote
  iterate 5 rfl
  -- what is left as it is differs from all three marks
  simp [isMark, hopen, hclose, hquote]

/-- **Escaped text has no marks.** -/
theorem marks_escape (s : String) : marks (escape s) = [] := by
  unfold marks escape
  rw [String.toList_ofList, List.filter_flatMap, List.flatMap_eq_nil_iff]
  intro c _
  exact filter_escapeChar c

theorem marks_piece_render (p : Piece) : marks p.render = p.marks := by
  cases p with
  | markup s => rfl
  | text s => exact marks_escape s

theorem marks_append (s t : String) : marks (s ++ t) = marks s ++ marks t := by
  simp [marks]

theorem render_cons (p : Piece) (rest : List Piece) : render (p :: rest) = p.render ++ render rest := by
  apply String.toList_inj.1
  cases rest <;> simp [render, Text.joinWith, String.toList_intercalate]

/-- **The marks of a page are those of its markup.** -/
theorem marks_render (pieces : List Piece) : marks (render pieces) = pieces.flatMap Piece.marks := by
  induction pieces with
  | nil => rfl
  | cons p rest ih => rw [render_cons, marks_append, marks_piece_render, ih, List.flatMap_cons]

/-- Markup without marks between groups leaves the marks of the groups. -/
theorem marks_separated {between : String} (h : marks between = []) (groups : List (List Piece)) :
    (separated between groups).flatMap Piece.marks = groups.flatMap (·.flatMap Piece.marks) := by
  fun_induction separated between groups with
  | case1 => rfl
  | case2 group => simp
  | case3 group rest _ ih => simp [ih, Piece.marks, h]

end Html

/-! ## §2. Results. -/

namespace Report

open Html

/-- Is an error given for a slice? -/
def hasError (slice : Datum) : Bool := (slice.field "error").truth

/-- **A slice as scans tell of it.**  Nothing is asked of the texts, nor of the members of the lists. -/
structure IsSliceResult (slice : Datum) : Prop where
  violated : ∃ names, slice.get? "violated_patterns" = some (.list names)
  sanitizers : ∃ names, slice.get? "sanitizers_applied" = some (.list names)
  diagnostics : ∃ counts, slice.get? "diagnostics" = some (.map counts)

/-- **Results as scans give them**, with the patterns and slices that they list. -/
structure IsScanResult (results : Datum) (patterns slices : List Datum) : Prop where
  time : results.get? "scan_time" = some (.int 0) ∨ ∃ x, results.get? "scan_time" = some (.real x)
  listsPatterns : results.get? "patterns" = some (.list patterns)
  listsSlices : results.get? "slices" = some (.list slices)
  each : ∀ s ∈ slices, IsSliceResult s

theorem isSliceResult_toDatum (r : SliceRecord) : IsSliceResult (r.toDatum Scan.countsObject) :=
  ⟨⟨_, rfl⟩, ⟨_, rfl⟩, ⟨_, rfl⟩⟩

/-- What a scan amounts to is fit for a report. -/
theorem isScanResult_results (s : Scan) (clock : Clock) :
    IsScanResult (s.results clock) (s.patterns.map .text) (s.slices.map (·.toDatum Scan.countsObject)) where
  time := by
    have htime : (s.results clock).get? "scan_time"
        = some (if s.slices.isEmpty then .int 0 else .real clock.elapsed) := rfl
    rw [htime]
    cases s.slices.isEmpty with
    | true => exact .inl rfl
    | false => exact .inr ⟨clock.elapsed, rfl⟩
  listsPatterns := rfl
  listsSlices := rfl
  each := by
    intro s hs
    obtain ⟨r, -, rfl⟩ := List.mem_map.1 hs
    exact isSliceResult_toDatum r

theorem members_of_list {d : Datum} {key : String} {items : List Datum} (h : d.get? key = some (.list items)) :
    members (fieldD d key (.list [])) = .ok items := by
  unfold fieldD
  rw [h]
  rfl

/-- The time of a scan can be written. -/
theorem IsScanResult.exists_seconds {results : Datum} {patterns slices : List Datum}
    (h : IsScanResult results patterns slices) (e : ReportError) :
    ∃ time, seconds e (fieldD results "scan_time" (.int 0)) = .ok time := by
  unfold fieldD
  rcases h.time with htime | ⟨x, htime⟩
  · rw [htime]
    exact ⟨_, rfl⟩
  · rw [htime]
    exact ⟨_, rfl⟩

/-! ## §3. Alike parts. -/

/-- **Both attempts at a part of a page succeed, and the parts have the same marks.** -/
def Alike (x y : Except ReportError (List Piece)) : Prop :=
  ∃ ps qs, x = .ok ps ∧ y = .ok qs ∧ ps.flatMap Piece.marks = qs.flatMap Piece.marks

/-- The counts have no marks, however many there are. -/
theorem exists_diagnosticPieces (counts : Entries) :
    ∃ ps, diagnosticPieces (some (.map counts)) = .ok ps ∧ ps.flatMap Piece.marks = [] := by
  refine ⟨_, rfl, ?_⟩
  rw [List.flatMap_assoc, List.flatMap_eq_nil_iff]
  intro e _
  rfl

/-- The words for the verdict have no marks. -/
theorem marks_verdict (vulnerable : Bool) :
    marks (if vulnerable then "vulnerable" else "safe") = []
      ∧ marks (if vulnerable then "存在漏洞" else "安全") = [] := by
  cases vulnerable <;> exact ⟨rfl, rfl⟩

/-- **The cells of two slices** are alike if both slices have an error or neither has one. -/
theorem cells_alike {s t : Datum} (hs : IsSliceResult s) (ht : IsSliceResult t) (h : hasError s = hasError t) :
    Alike (cells s) (cells t) := by
  cases herror : hasError s with
  | true =>
    have hs' : ((s.get? "error").getD .null).truth = true := herror
    have ht' : ((t.get? "error").getD .null).truth = true := h.symm.trans herror
    unfold cells
    rw [if_pos hs', if_pos ht']
    exact ⟨_, _, rfl, rfl, rfl⟩
  | false =>
    have hs' : ¬ ((s.get? "error").getD .null).truth = true := ne_true_of_eq_false herror
    have ht' : ¬ ((t.get? "error").getD .null).truth = true := ne_true_of_eq_false (h.symm.trans herror)
    obtain ⟨⟨violated, hviolated⟩, ⟨sanitizers, hsanitizers⟩, ⟨counts, hcounts⟩⟩ := hs
    obtain ⟨⟨violated', hviolated'⟩, ⟨sanitizers', hsanitizers'⟩, ⟨counts', hcounts'⟩⟩ := ht
    obtain ⟨ps, hps, hnone⟩ := exists_diagnosticPieces counts
    obtain ⟨qs, hqs, hnone'⟩ := exists_diagnosticPieces counts'
    unfold cells
    rw [if_neg hs', if_neg ht', hviolated, hviolated', hsanitizers, hsanitizers', hcounts, hcounts', hps, hqs]
    -- the verdicts may differ, and with them the words on the page, but none of these has a mark
    refine ⟨_, _, rfl, rfl, ?_⟩
    simp only [List.flatMap_append, List.flatMap_cons, List.flatMap_nil, Piece.marks, marks_verdict, hnone, hnone']

/-- The rows of two slices are alike if their cells are. -/
theorem row_alike {s t : Datum} (h : Alike (cells s) (cells t)) : Alike (row s) (row t) := by
  obtain ⟨ps, qs, hps, hqs, hmarks⟩ := h
  unfold row
  rw [hps, hqs]
  refine ⟨_, _, rfl, rfl, ?_⟩
  simp only [optionalText, List.flatMap_append, List.flatMap_cons, List.flatMap_nil, Piece.marks, hmarks]

/-- **The rows of two lists of slices** are alike if the slices have errors in the same places. -/
theorem rows_alike {slices slices' : List Datum}
    (herrors : List.Forall₂ (fun s t => hasError s = hasError t) slices slices')
    (h : ∀ s ∈ slices, IsSliceResult s) (h' : ∀ s ∈ slices', IsSliceResult s) :
    Alike (rows slices) (rows slices') := by
  induction herrors with
  | nil => exact ⟨[], [], rfl, rfl, rfl⟩
  | @cons s t rest rest' herror _ ih =>
    obtain ⟨hs, hrest⟩ := List.forall_mem_cons.1 h
    obtain ⟨ht, hrest'⟩ := List.forall_mem_cons.1 h'
    obtain ⟨ps, qs, hps, hqs, hmarks⟩ := row_alike (cells_alike hs ht herror)
    obtain ⟨others, others', hothers, hothers', hmarks'⟩ := ih hrest hrest'
    unfold rows
    rw [hps, hqs, hothers, hothers']
    refine ⟨_, _, rfl, rfl, ?_⟩
    simp only [List.flatMap_append, hmarks, hmarks']

/-- The names of patterns add as many marks as there are names. -/
theorem marks_patterns (patterns : List Datum) :
    (separated ", " (patterns.map fun p => [.markup "<code>", .text p.display, .markup "</code>"])).flatMap Piece.marks
      = (List.replicate patterns.length (marks "<code>" ++ marks "</code>")).flatten := by
  rw [marks_separated rfl, List.flatMap_map, ← List.map_const', List.flatMap_def]
  simp only [List.flatMap_cons, List.flatMap_nil, Piece.marks, List.nil_append, List.append_nil]

/-- **The pages of two reports** are alike if they list equally many patterns, and slices with errors in the
same places. -/
theorem page_alike {r r' : Datum} {patterns patterns' slices slices' : List Datum}
    (h : IsScanResult r patterns slices) (h' : IsScanResult r' patterns' slices')
    (hpatterns : patterns.length = patterns'.length)
    (herrors : List.Forall₂ (fun s t => hasError s = hasError t) slices slices') (title title' date date' : String) :
    Alike (page title date r) (page title' date' r') := by
  obtain ⟨time, htime⟩ := h.exists_seconds .notANumber
  obtain ⟨time', htime'⟩ := h'.exists_seconds .notANumber
  obtain ⟨ps, qs, hps, hqs, hmarks⟩ := rows_alike herrors h.each h'.each
  unfold page
  rw [htime, htime', members_of_list h.listsPatterns, members_of_list h'.listsPatterns, members_of_list h.listsSlices,
    members_of_list h'.listsSlices]
  -- the rows are made behind what was read before them
  simp only [bind, Except.bind]
  rw [hps, hqs]
  refine ⟨_, _, rfl, rfl, ?_⟩
  simp only [countText, markupLines, List.flatMap_append, List.flatMap_cons, List.flatMap_nil, Piece.marks,
    marks_patterns, hpatterns, hmarks]

/-! ## §4. Reports. -/

section Writing

variable {config : Config} {clock : Clock} {results : Datum}

/-- Writing goes on with what was made. -/
theorem ok_andThen {α β : Type} (x : α) (f : α → Writing β) :
    (liftM (Except.ok x : Except ReportError α) >>= f) = f x := rfl

/-- Writing ends where nothing was made. -/
theorem error_andThen {α β : Type} (e : ReportError) (f : α → Writing β) :
    (liftM (Except.error e : Except ReportError α) >>= f) = throw e := rfl

/-- Without a title there is no report. -/
theorem writeHtml_of_title_error {e : ReportError} (htitle : title config = .error e) (directory : String) :
    writeHtml config clock results directory = throw e := by
  unfold writeHtml
  rw [htitle, error_andThen]

/-- To write a report is to write the page. -/
theorem writeHtml_of_page {name : String} {pieces : List Piece} (htitle : title config = .ok name)
    (hpage : page name clock.plainText results = .ok pieces) (directory : String) :
    writeHtml config clock results directory = write directory clock "html" (render pieces) := by
  unfold writeHtml
  rw [htitle, ok_andThen, hpage, ok_andThen]

end Writing

/-- **The marks of a report withstand the texts in it.**  Results of scans are fit for reports.  If two
results have equally many patterns, and slices with errors in the same places, then the reports on them
have the same marks, whatever the target, the names of files, patterns and sanitizers, the
diagnostics and the errors contain.  There are reports unless the configuration has no title for them. -/
theorem page_marks_withstand_texts (config : Config) :
    (∀ (s : Scan) (clock : Clock),
      IsScanResult (s.results clock) (s.patterns.map .text) (s.slices.map (·.toDatum Scan.countsObject))) ∧
    ∀ (r r' : Datum) (patterns patterns' slices slices' : List Datum) (clock clock' : Clock),
      IsScanResult r patterns slices → IsScanResult r' patterns' slices' → patterns.length = patterns'.length →
      List.Forall₂ (fun s t => hasError s = hasError t) slices slices' →
      (∀ e, title config = .error e → ∀ directory,
        writeHtml config clock r directory = throw e ∧ writeHtml config clock' r' directory = throw e) ∧
      (∀ name, title config = .ok name → ∃ text text',
        (∀ directory, writeHtml config clock r directory = write directory clock "html" text) ∧
        (∀ directory, writeHtml config clock' r' directory = write directory clock' "html" text') ∧
        marks text = marks text') := by
  refine ⟨isScanResult_results, ?_⟩
  intro r r' patterns patterns' slices slices' clock clock' h h' hpatterns herrors
  constructor
  · intro e htitle directory
    exact ⟨writeHtml_of_title_error htitle directory, writeHtml_of_title_error htitle directory⟩
  · intro name htitle
    obtain ⟨pieces, pieces', hpage, hpage', hmarks⟩ :=
      page_alike h h' hpatterns herrors name name clock.plainText clock'.plainText
    refine ⟨render pieces, render pieces', writeHtml_of_page htitle hpage, writeHtml_of_page htitle hpage', ?_⟩
    rw [marks_render, marks_render, hmarks]

/-- A scan of a file that cannot be loaded and of one that can, with the given text wherever there is one. -/
def scanOf (text : String) : Scan where
  target := text
  patterns := [text, text]
  slices :=
    [⟨text, none, .failed text⟩,
     ⟨text, some text, .concluded ⟨⟨true, [text], [text], 0⟩, Tally.empty.record text⟩⟩]

/-- A configuration in which the program has a name. -/
def named (name : String) : Config := ⟨[(.text "system", .map [(.text "name", .text name)])], {}⟩

theorem title_named (name : String) : title (named name) = .ok (name ++ " 污点分析报告") := by
  have hname : (named name).systemName = .text name := by rfl
  unfold title
  rw [hname]
  rfl

/-- A script in the place of every text leaves the marks that a harmless word leaves. -/
theorem script_withstood :
    let clock : Clock := ⟨2024, 1, 2, 3, 4, 5, 0, .zero false⟩
    ∃ text text',
      (∀ directory, writeHtml (named "</title>") clock ((scanOf "\"><script>").results clock) directory
        = write directory clock "html" text) ∧
      (∀ directory, writeHtml (named "</title>") clock ((scanOf "word").results clock) directory
        = write directory clock "html" text') ∧
      marks text = marks text' := by
  intro clock
  have hhostile := isScanResult_results (scanOf "\"><script>") clock
  have hharmless := isScanResult_results (scanOf "word") clock
  have hreports := (page_marks_withstand_texts (named "</title>")).2 _ _ _ _ _ _ clock clock hhostile hharmless rfl
    (.cons rfl (.cons rfl .nil))
  exact hreports.2 _ (title_named "</title>")

end Report

end TaintFlow
