/-
  TaintFlow.Proofs.Agreement
  ──────────────────────────
  **A tree is judged alike in a file and as a value, apart from the counts of its loading.**

  A slice file is loaded by the scan, which hands the tree on; a value is loaded by the analysis
  itself, which counts what was degraded on the way with `ast_` in front.  The statements are
  executed from the same setting in both cases:

    • `Conclusion.DiffersByLoading` — the same verdict, and the same counts but for those of the
      loading, which stand in front,
    • `Program.differsByLoading_run` — the counts of a loading are carried through an analysis and
      change nothing else,
    • `scan_and_value_differ_by_loading` — this is how a slice file and its value differ; they are
      judged alike in everything exactly if nothing was degraded.
-/
import TaintFlow.Proofs.Coupling
import TaintFlow.Proofs.Reasons
import TaintFlow.Proofs.Scanning

namespace TaintFlow

/-! ## §1. Conclusions about one tree. -/

/-- **Two conclusions about one tree, the second with the counts of its loading in front.** -/
structure Conclusion.DiffersByLoading (loading : Tally) (a b : Conclusion) : Prop where
  verdict : a.verdict = b.verdict
  diagnostics :
    b.diagnostics.toList = (loading.toList.map fun e => ("ast_" ++ e.1, e.2)) ++ a.diagnostics.toList

/-- The conclusions are the same exactly if the loading counted nothing. -/
theorem Conclusion.DiffersByLoading.eq_iff {loading : Tally} {a b : Conclusion}
    (h : DiffersByLoading loading a b) : a = b ↔ loading = ∅ := by
  constructor
  · rintro rfl
    have hnone : (loading.toList.map fun e => ("ast_" ++ e.1, e.2)) = [] :=
      List.self_eq_append_left.1 h.diagnostics
    exact Tally.eq_of_toList (List.map_eq_nil_iff.1 hnone)
  · rintro rfl
    have hdiagnostics : a.diagnostics = b.diagnostics := Tally.eq_of_toList h.diagnostics.symm
    cases a
    cases b
    exact congrArg₂ Conclusion.mk h.verdict hdiagnostics

/-- No reason of an analysis looks like one of a loading. -/
theorem ne_labelled_of_mem {reason : String} (h : reason ∈ analysisReasons) (r : String) : reason ≠ "ast_" ++ r := by
  intro heq
  have hprefix : "ast_".toList <+: reason.toList := by
    rw [heq, String.toList_append]
    exact List.prefix_append _ _
  have hnone : ∀ reason ∈ analysisReasons, ¬ "ast_".toList <+: reason.toList := by decide
  exact hnone reason h hprefix

/-- **The counts of a loading are carried through an analysis and change nothing else.** -/
theorem Program.differsByLoading_run (o : Options) (c : Catalog) (loading : Tally) (p : Program) :
    (p.run o c ∅).conclude.DiffersByLoading loading (p.run o c loading).conclude := by
  obtain ⟨d, hd⟩ := p.adds_run o c
  have hempty : (Run.initial c ∅).Adds d (p.run o c ∅) := hd ∅
  have hloaded : (Run.initial c loading).Adds d (p.run o c loading) := hd loading
  -- what comes up in the analysis without a loading is all that can come up in the other
  have hreasons : ∀ r ∈ d.reasons, r ∈ analysisReasons := by
    intro r hr
    by_contra hnone
    have hcount := p.count_run_of_notMem o c ∅ hnone
    rw [hempty.diagnostics, Tally.count_foldl_record] at hcount
    have hpositive := List.count_pos_iff.2 hr
    have hstart : (Run.initial c ∅).diagnostics.count r = (Tally.empty.merge "ast_" (∅ : Tally).toList).count r := rfl
    omega
  have hlabelled : (Run.initial c loading).diagnostics.toList
      = loading.toList.map fun e => ("ast_" ++ e.1, e.2) :=
    Tally.empty.toList_merge "ast_" loading.counts.nodup fun e _ hmem => nomatch hmem
  refine ⟨?_, ?_⟩
  · show (p.run o c ∅).verdict = (p.run o c loading).verdict
    rw [hempty.verdict, hloaded.verdict]
    rfl
  · show (p.run o c loading).diagnostics.toList = _ ++ (p.run o c ∅).diagnostics.toList
    rw [hempty.diagnostics, hloaded.diagnostics, ← hlabelled]
    refine Tally.toList_foldl_record_of_append (List.append_nil _).symm fun r hr hmem => ?_
    -- all that is counted before the analysis is labelled, and no reason of the analysis is
    have hkeys : r ∈ Assoc.keys (Run.initial c loading).diagnostics.toList := hmem
    rw [hlabelled, Assoc.keys, List.map_map] at hkeys
    obtain ⟨e, -, rfl⟩ := List.mem_map.1 hkeys
    exact ne_labelled_of_mem (hreasons _ hr) e.1 rfl

/-! ## §2. Files and values. -/

/-- **A slice file and the value in it**: the analysis refuses both for their depth, or comes to the same verdict
about them, and then the counts for the value are those for the file behind those of the loading. -/
theorem scan_and_value_differ_by_loading {limits : Limits} {o : Options} {c : Catalog} {d : Disk} {path : String}
    {bytes : List UInt8} {data : Datum} {p : Program} (hread : d.readBytes path = .ok bytes)
    (hdecode : Syntax.decode limits (Disk.textOfBytes bytes) = .ok data) (hload : (Syntax.load limits data).1 = .ok p) :
    ∃ r, scanFile limits o c d path = .ok r ∧ r.file = path ∧
      ((r.outcome = .failed tooDeepMessage ∧ (analyze limits o c data).1 = .error .tooDeep) ∨
        ∃ a b, r.outcome = .concluded a ∧ (analyze limits o c data).1 = .ok b ∧
          a.DiffersByLoading (Syntax.load limits data).2.diagnostics b ∧
          (a = b ↔ (Syntax.load limits data).2.diagnostics = ∅)) := by
  have htext : (Syntax.loadText limits (Disk.textOfBytes bytes)).1 = .ok p := by
    rw [Syntax.loadText_of_decode hdecode, hload]
  rw [analyze_of_load hload]
  unfold Program.analyze
  by_cases hdepth : condDepthAll o p.children ≤ limits.cond o.blockStrategy
  · have hscanned : Scanned limits o c d path _ := .concluded hread htext hdepth
    have hdiffers := p.differsByLoading_run o c (Syntax.load limits data).2.diagnostics
    rw [if_pos hdepth]
    exact ⟨_, hscanned.scanFile_eq, rfl, .inr ⟨_, _, rfl, rfl, hdiffers, hdiffers.eq_iff⟩⟩
  · have hscanned : Scanned limits o c d path _ := .tooDeep hread htext (Nat.lt_of_not_le hdepth)
    rw [if_neg hdepth]
    exact ⟨_, hscanned.scanFile_eq, rfl, .inl ⟨rfl, rfl⟩⟩

/-- A tree with a number for a child, as a text and as a value. -/
def numberedTree : String × Datum := ("\x7b\"children\":[5]\x7d", .map [(.text "children", .list [.int 5])])

theorem numberedTree_differs_by_loading :
    let c : Catalog := ⟨[.build "XSS" ["$_GET"] [] ["echo"]]⟩
    let d := Disk.ofTexts [("a.json", numberedTree.1)]
    ∃ r a b, scanFile .standard {} c d "a.json" = .ok r ∧ r.outcome = .concluded a ∧
      (analyze .standard {} c numberedTree.2).1 = .ok b ∧
      a.DiffersByLoading (Syntax.load .standard numberedTree.2).2.diagnostics b ∧
      b.diagnostics.toList = [("ast_non_object_node", 1), ("unknown_statement", 1)] ∧ a ≠ b := by
  intro c d
  have hread : d.readBytes "a.json" = .ok (Text.utf8Bytes numberedTree.1) := by decide +kernel
  have hdecode : Syntax.decode .standard (Disk.textOfBytes (Text.utf8Bytes numberedTree.1)) = .ok numberedTree.2 := by
    with_unfolding_all rfl
  have hload : (Syntax.load .standard numberedTree.2).1 = .ok ⟨[.unknown none .notAnObject]⟩ := rfl
  have hvalue : (analyze .standard {} c numberedTree.2).1.map (·.diagnostics.toList)
      = .ok [("ast_non_object_node", 1), ("unknown_statement", 1)] := by
    decide +kernel
  have hloading : (Syntax.load .standard numberedTree.2).2.diagnostics ≠ ∅ := by decide +kernel
  obtain ⟨r, hscan, -, ⟨-, hrefused⟩ | ⟨a, b, ha, hb, hdiffers, hiff⟩⟩ :=
    scan_and_value_differ_by_loading (o := {}) (c := c) hread hdecode hload
  · rw [hrefused] at hvalue
    cases hvalue
  · rw [hb] at hvalue
    exact ⟨r, a, b, hscan, ha, hb, hdiffers, Except.ok.inj hvalue, fun heq => hloading (hiff.1 heq)⟩

/-- The count of an empty tree is lost in a scan: the file and the value in it are not judged alike in everything. -/
theorem childless_slice_count_lost :
    Syntax.decode .standard (Disk.textOfBytes (Text.utf8Bytes "\x7b\x7d")) = .ok (.map []) ∧
    (scanFile .standard {} ⟨[]⟩ (Disk.ofTexts [("a.json", "\x7b\x7d")]) "a.json").map (·.diagnostics.toList) = .ok [] ∧
    (analyze .standard {} ⟨[]⟩ (.map [])).1.map (·.diagnostics.toList) = .ok [("ast_program_without_children", 1)] := by
  refine ⟨?_, ?_, ?_⟩
  · with_unfolding_all rfl
  · decide +kernel
  · decide +kernel

end TaintFlow
