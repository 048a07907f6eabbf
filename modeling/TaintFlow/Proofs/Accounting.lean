/-
  TaintFlow.Proofs.Accounting
  ───────────────────────────
  **The figures of a scan balance.**

  Vulnerable, safe and failed slices are counted by three separate tests, and findings are
  counted slice by slice and pattern by pattern.

    • `Scan.Balances` — the slices fall into the three classes, every way of counting findings
      leads to the same number, and a slice is vulnerable exactly if it has a finding,
    • `Scan.ShownIn` — the report of a scan has these figures under their names,
    • `Program.vulnerable_run_iff` — what all of it rests on: an analysis calls a tree vulnerable
      exactly if it lists a violation,
    • `scan_accounting_balances` — every scan that ends balances.
-/
import Mathlib.Data.List.Induction
import TaintFlow.Proofs.Invariants
import TaintFlow.Proofs.Scanning

namespace TaintFlow

/-! ## §1. Figures that balance. -/

namespace Scan

/-- The names of the violated patterns, slice by slice, as often as they are violated. -/
def violations (s : Scan) : List String := s.slices.flatMap (·.verdict.violatedPatterns)

/-- **The figures of a scan of the given files balance.** -/
structure Balances (files : List String) (s : Scan) : Prop where
  files : s.slices.map (·.file) = files
  slices : s.slices.length = s.vulnerableCount + s.safeCount + s.failedCount
  findings : s.findings.length = s.findingCount
  perSlice : s.findingCount = (s.slices.map (·.verdict.violatedPatterns.length)).foldr (· + ·) 0
  perPattern : s.byPattern.total = s.findingCount
  /-- Each violated pattern once, in the order in which they are first found. -/
  patterns : s.byPattern.counts.keys = (s.findings.map (·.pattern)).eraseDups
  counts : ∀ name, s.byPattern.count name = s.findings.countP (·.pattern = name)
  vulnerable : ∀ r ∈ s.slices, r.isVulnerable = true ↔ r.findings ≠ []
  failed : ∀ r ∈ s.slices, r.isFailed = true → r.isVulnerable = false ∧ r.findings = []
  /-- A failure can be told from its wording. -/
  wording : ∀ r ∈ s.slices, ∀ error, r.error? = some error → error ≠ ""

/-- The report has the figures of the scan under their names. -/
structure ShownIn (report : Datum) (s : Scan) : Prop where
  filesScanned : report.field "files_scanned" = .int s.slices.length
  slices : report.field "slices" = .list (s.slices.map (·.toDatum countsObject))
  findings : report.field "findings" = .list (s.findings.map (·.toDatum))
  totalSlices : (report.field "summary").field "total_slices" = .int s.slices.length
  vulnerableSlices : (report.field "summary").field "vulnerable_slices" = .int s.vulnerableCount
  safeSlices : (report.field "summary").field "safe_slices" = .int s.safeCount
  failedSlices : (report.field "summary").field "failed_slices" = .int s.failedCount
  totalFindings : (report.field "summary").field "total_findings" = .int s.findingCount
  byPattern : (report.field "summary").field "by_pattern" = countsObject s.byPattern

theorem shownIn_results (s : Scan) (clock : Clock) : s.ShownIn (s.results clock) := by
  constructor <;> rfl

end Scan

/-! ## §2. Vulnerable trees. -/

/-- **An analysis calls a tree vulnerable exactly if it lists a violation.** -/
theorem Program.vulnerable_run_iff (o : Options) (c : Catalog) (loading : Tally) (p : Program) :
    (p.run o c loading).verdict.vulnerable = true ↔ (p.run o c loading).verdict.violatedPatterns ≠ [] := by
  obtain ⟨d, hd⟩ := p.adds_run o c
  -- the run starts with an empty verdict, and all that is added to it is an output
  rw [(hd loading).verdict]
  refine vulnerable_emit_iff ⟨fun h => ?_, fun h => absurd rfl h⟩ d
  cases h

namespace SliceRecord

variable {r : SliceRecord}

theorem findings_eq_nil_iff : r.findings = [] ↔ r.verdict.violatedPatterns = [] := by
  unfold findings
  exact List.map_eq_nil_iff

theorem findings_of_failed (h : r.isFailed = true) : r.findings = [] := by
  rw [findings_eq_nil_iff, verdict_of_failed h]

end SliceRecord

/-- A slice is vulnerable exactly if it has a finding. -/
theorem Scanned.isVulnerable_iff {limits : Limits} {o : Options} {c : Catalog} {d : Disk} {path : String}
    {r : SliceRecord} (h : Scanned limits o c d path r) : r.isVulnerable = true ↔ r.findings ≠ [] := by
  by_cases hfailed : r.isFailed = true
  · rw [SliceRecord.isVulnerable_of_failed hfailed, SliceRecord.findings_of_failed hfailed]
    simp
  · cases h with
    | unreadable hread => exact absurd rfl hfailed
    | rejected hread hload => exact absurd rfl hfailed
    | tooDeep hread hload hdepth => exact absurd rfl hfailed
    | concluded hread hload hdepth =>
      rw [ne_eq, SliceRecord.findings_eq_nil_iff]
      exact Program.vulnerable_run_iff o c ∅ _

/-! ## §3. Counts. -/

/-- Items fall into those with a first property, those with a second and those with neither, if none has both. -/
theorem length_eq_countP_add {α : Type} {first second : α → Bool} {l : List α}
    (h : ∀ a ∈ l, second a = true → first a = false) :
    l.length = l.countP first + l.countP (fun a => !first a && !second a) + l.countP second := by
  induction l with
  | nil => rfl
  | cons a l ih =>
    have hrest := ih fun b hb => h b (List.mem_cons_of_mem a hb)
    have ha := h a List.mem_cons_self
    rw [List.length_cons, List.countP_cons, List.countP_cons, List.countP_cons, hrest]
    cases hfirst : first a <;> cases hsecond : second a
    · simp
      omega
    · simp
      omega
    · simp
      omega
    · rw [hfirst] at ha
      cases ha hsecond

/-- Recorded reasons are listed once each, in the order in which they first come up. -/
theorem Tally.keys_foldl_record (reasons : List String) :
    (reasons.foldl Tally.record Tally.empty).counts.keys = reasons.eraseDups := by
  induction reasons using List.reverseRecOn with
  | nil => rfl
  | append_singleton reasons r ih =>
    -- on both sides a reason that came up before keeps its place, and a new one goes to the end
    rw [List.foldl_append, List.eraseDups_append, ← ih]
    show (OrderedMap.put _ r _).keys = _
    rw [OrderedMap.keys_put, ih]
    by_cases h : r ∈ reasons
    · rw [if_pos (List.mem_eraseDups.2 h)]
      simp [List.removeAll, h]
    · rw [if_neg fun hmem => h (List.mem_eraseDups.1 hmem)]
      simp [List.removeAll, h, List.eraseDups_cons]

namespace Scan

variable (s : Scan)

theorem patterns_of_findings : s.findings.map (·.pattern) = s.violations := by
  unfold findings violations
  rw [List.map_flatMap]
  congr 1
  funext r
  simp [SliceRecord.findings, Function.comp_def]

theorem findingCount_eq_sum :
    s.findingCount = (s.slices.map (·.verdict.violatedPatterns.length)).foldr (· + ·) 0 := by
  rw [List.foldr_map]
  rfl

theorem length_violations : s.violations.length = s.findingCount := by
  unfold violations
  rw [List.length_flatMap, List.sum_eq_foldr, findingCount_eq_sum]

theorem length_findings : s.findings.length = s.findingCount := by
  rw [← s.length_violations, ← s.patterns_of_findings, List.length_map]

/-- The counts by pattern add up to the number of findings. -/
theorem total_byPattern : s.byPattern.total = s.findingCount := by
  have htotal : s.byPattern.total = 0 + s.violations.length := Tally.total_foldl_record Tally.empty s.violations
  rw [htotal, length_violations]
  omega

theorem keys_byPattern : s.byPattern.counts.keys = (s.findings.map (·.pattern)).eraseDups := by
  rw [patterns_of_findings]
  exact Tally.keys_foldl_record s.violations

theorem count_byPattern (name : String) : s.byPattern.count name = s.findings.countP (·.pattern = name) := by
  have hcount : s.byPattern.count name = 0 + s.violations.count name :=
    Tally.count_foldl_record Tally.empty s.violations name
  rw [hcount, ← patterns_of_findings, List.count, List.countP_map]
  simp [Function.comp_def, beq_eq_decide]

/-- Every slice is vulnerable, safe or failed, and no slice is two of these. -/
theorem length_slices : s.slices.length = s.vulnerableCount + s.safeCount + s.failedCount := by
  exact length_eq_countP_add fun r _ hfailed => SliceRecord.isVulnerable_of_failed hfailed

end Scan

/-! ## §4. Scans. -/

/-- **Every scan that ends balances**, and its report shows the figures. -/
theorem scan_accounting_balances {limits : Limits} {o : Options} {c : Catalog} {d : Disk} {target : String} {s : Scan}
    (h : scan limits o c d target = .ok s) (clock : Clock) :
    s.ShownIn (s.results clock) ∧ ∃ files, Discovery.sliceFiles d target = .ok files ∧ s.Balances files := by
  obtain ⟨-, -, files, hfiles, hscanned⟩ := scan_eq_ok_iff.1 h
  refine ⟨s.shownIn_results clock, files, hfiles, ?_⟩
  refine ⟨files_of_scanned hscanned, s.length_slices, s.length_findings, s.findingCount_eq_sum,
    s.total_byPattern, s.keys_byPattern, s.count_byPattern, fun r hr => ?_, fun r hr hfailed => ?_,
    fun r hr error herror => ?_⟩
  · exact (scanned_of_mem h hr).isVulnerable_iff
  · exact ⟨SliceRecord.isVulnerable_of_failed hfailed, SliceRecord.findings_of_failed hfailed⟩
  · exact (scanned_of_mem h hr).error_ne_empty herror

theorem mixedFolder_balances :
    let c : Catalog :=
      ⟨[.build "XSS" ["$_GET"] [] ["echo"], .build "LEAK" ["$_GET"] [] ["echo"], .build "XSS" ["$_GET"] [] ["echo"]]⟩
    let clock : Clock := ⟨2024, 1, 2, 3, 4, 5, 0, .zero false⟩
    ∃ s, scan .standard {} c mixedFolder "." = .ok s ∧
      s.vulnerableCount = 1 ∧ s.safeCount = 1 ∧ s.failedCount = 1 ∧ s.byPattern.toList = [("XSS", 2), ("LEAK", 1)] ∧
      s.ShownIn (s.results clock) ∧ ∃ files, Discovery.sliceFiles mixedFolder "." = .ok files ∧ s.Balances files := by
  intro c clock
  have hfigures : (scan .standard {} c mixedFolder ".").map
      (fun s => (s.vulnerableCount, s.safeCount, s.failedCount, s.byPattern.toList))
        = .ok (1, 1, 1, [("XSS", 2), ("LEAK", 1)]) := by
    decide +kernel
  cases hscan : scan .standard {} c mixedFolder "." with
  | error e =>
    rw [hscan] at hfigures
    cases hfigures
  | ok s =>
    rw [hscan] at hfigures
    have hfigures := Except.ok.inj hfigures
    simp only [Prod.mk.injEq] at hfigures
    obtain ⟨hvulnerable, hsafe, hfailed, hpatterns⟩ := hfigures
    exact ⟨s, rfl, hvulnerable, hsafe, hfailed, hpatterns, scan_accounting_balances hscan clock⟩

end TaintFlow
