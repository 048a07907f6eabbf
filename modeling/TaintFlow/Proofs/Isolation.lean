/-
  TaintFlow.Proofs.Isolation
  ──────────────────────────
  **A slice file that cannot be analysed fails alone, with one exception.**

  The slice files of a directory are scanned one after the other.  One that cannot be read, is no
  tree or is nested too deeply has a record that says so, and the others have theirs as if it were
  not there.  The exception is a tree in which the parts of an interpolated text are given by
  something that cannot be walked over: it has no record, and neither has any other file.

    • `Analysable` — the files that have a conclusion,
    • `Scan.Isolates` — one record for each file, in order, which depends on that file alone,
    • `directory_scan_isolates_slices` — the scan of a directory isolates its files, or one of them
      is such an exception,
    • `unwalkable_slice_ends_scan` — a directory in which one file takes the record of another away.
-/
import TaintFlow.Proofs.Building
import TaintFlow.Proofs.Scanning

namespace TaintFlow

/-! ## §1. Records of single files. -/

/-- The file can be read, its text is a tree, and no conditionals are nested too deeply in it. -/
def Analysable (limits : Limits) (o : Options) (d : Disk) (path : String) : Prop :=
  ∃ bytes p, d.readBytes path = .ok bytes ∧ (Syntax.loadText limits (Disk.textOfBytes bytes)).1 = .ok p ∧
    condDepthAll o p.children ≤ limits.cond o.blockStrategy

/-- The file holds a tree that no builder can make anything of: the parts of an interpolated text are given by
something that cannot be walked over. -/
def Unbuildable (limits : Limits) (d : Disk) (path : String) : Prop :=
  ∃ bytes data, d.readBytes path = .ok bytes ∧ Syntax.decode limits (Disk.textOfBytes bytes) = .ok data ∧
    (Syntax.load limits data).1 = .error .partsNotWalkable ∧ Syntax.Contains Syntax.Unwalkable data

namespace Scanned

variable {limits : Limits} {o : Options} {c : Catalog} {d : Disk} {path : String} {r : SliceRecord}

/-- Nothing but the file is read for its record. -/
theorem of_readBytes_eq (h : Scanned limits o c d path r) {d' : Disk} (hread' : d'.readBytes path = d.readBytes path) :
    Scanned limits o c d' path r := by
  cases h with
  | unreadable hread => exact .unreadable (hread'.trans hread)
  | rejected hread hload => exact .rejected (hread'.trans hread) hload
  | tooDeep hread hload hdepth => exact .tooDeep (hread'.trans hread) hload hdepth
  | concluded hread hload hdepth => exact .concluded (hread'.trans hread) hload hdepth

/-- The files that can be analysed are those with a conclusion. -/
theorem isFailed_iff (h : Scanned limits o c d path r) : r.isFailed = true ↔ ¬ Analysable limits o d path := by
  cases h with
  | unreadable hread =>
    refine ⟨fun _ ⟨bytes, p, hbytes, _⟩ => ?_, fun _ => rfl⟩
    rw [hread] at hbytes
    cases hbytes
  | rejected hread hload =>
    refine ⟨fun _ ⟨bytes, p, hbytes, hp, _⟩ => ?_, fun _ => rfl⟩
    rw [hread] at hbytes
    rw [← Except.ok.inj hbytes, hload] at hp
    cases hp
  | tooDeep hread hload hdepth =>
    refine ⟨fun _ ⟨bytes, p, hbytes, hp, hshallow⟩ => ?_, fun _ => rfl⟩
    rw [hread] at hbytes
    rw [← Except.ok.inj hbytes, hload] at hp
    rw [← Except.ok.inj hp] at hshallow
    omega
  | concluded hread hload hdepth =>
    refine ⟨fun h => ?_, fun hnot => absurd ⟨_, _, hread, hload, hdepth⟩ hnot⟩
    cases h

/-- A file that no builder can make anything of has no record. -/
theorem not_unbuildable (h : Scanned limits o c d path r) : ¬ Unbuildable limits d path := by
  rintro ⟨bytes, data, hread, hdecode, hload, -⟩
  have herror : scanFile limits o c d path = .error .partsNotWalkable :=
    scanFile_eq_error_iff.2 ⟨rfl, bytes, hread, by rw [Syntax.loadText_of_decode hdecode, hload]⟩
  rw [h.scanFile_eq] at herror
  cases herror

end Scanned

/-! ## §2. Scans of directories. -/

/-- **One record for each file, in order, and each as if its file were the only one.** -/
structure Scan.Isolates (limits : Limits) (o : Options) (c : Catalog) (d : Disk) (files : List String) (s : Scan) :
    Prop where
  inOrder : s.slices.map (·.file) = files
  /-- Wherever a file with these bytes is all that is found, its record is the same. -/
  alone : ∀ r ∈ s.slices, scanFile limits o c d r.file = .ok r ∧
    ∀ d' target', Discovery.sliceFiles d' target' = .ok [r.file] → d'.readBytes r.file = d.readBytes r.file →
      scan limits o c d' target' = .ok ⟨target', c.names, [r]⟩
  analysed : ∀ r ∈ s.slices, Analysable limits o d r.file → r.error? = none
  failed : ∀ r ∈ s.slices, ¬ Analysable limits o d r.file → ∃ error, r.error? = some error ∧ error ≠ "" ∧
    r.isVulnerable = false ∧ r.verdict.violatedPatterns = []
  buildable : ∀ path ∈ files, ¬ Unbuildable limits d path

variable {limits : Limits} {o : Options} {c : Catalog} {d : Disk} {target : String}

theorem isolates_of_scan {s : Scan} {files : List String} (hfiles : Discovery.sliceFiles d target = .ok files)
    (h : scan limits o c d target = .ok s) : s.Isolates limits o c d files := by
  obtain ⟨-, -, files', hfiles', hscanned⟩ := scan_eq_ok_iff.1 h
  obtain rfl : files = files' := Except.ok.inj (hfiles.symm.trans hfiles')
  refine ⟨files_of_scanned hscanned, fun r hr => ⟨?_, fun d' target' hfound hread => ?_⟩, fun r hr hanalysable => ?_,
    fun r hr hnot => ?_, fun path hpath => ?_⟩
  · exact (scanned_of_mem h hr).scanFile_eq
  · -- the other disk can differ in everything but this file
    have hsame := (scanned_of_mem h hr).of_readBytes_eq hread
    exact scan_eq_ok_iff.2 ⟨rfl, rfl, [r.file], hfound, .cons hsame .nil⟩
  · have hsucceeds : ¬ r.isFailed = true := fun hfailed => (scanned_of_mem h hr).isFailed_iff.1 hfailed hanalysable
    exact Option.not_isSome_iff_eq_none.1 hsucceeds
  · have hfailed : r.isFailed = true := (scanned_of_mem h hr).isFailed_iff.2 hnot
    obtain ⟨error, herror⟩ := Option.isSome_iff_exists.1 hfailed
    refine ⟨error, herror, (scanned_of_mem h hr).error_ne_empty herror, SliceRecord.isVulnerable_of_failed hfailed, ?_⟩
    rw [SliceRecord.verdict_of_failed hfailed]
  · rw [← files_of_scanned hscanned] at hpath
    obtain ⟨r, hr, rfl⟩ := List.mem_map.1 hpath
    exact (scanned_of_mem h hr).not_unbuildable

theorem exists_unbuildable_of_scan {e : ScanError} {files : List String}
    (hfiles : Discovery.sliceFiles d target = .ok files) (h : scan limits o c d target = .error e) :
    e = .partsNotWalkable ∧ ∃ path ∈ files, Unbuildable limits d path := by
  obtain ⟨rfl, path, hpath, bytes, hread, hload⟩ := scan_eq_error hfiles h
  refine ⟨rfl, path, hpath, bytes, ?_⟩
  cases hdecode : Syntax.decode limits (Disk.textOfBytes bytes) with
  | error why =>
    rw [Syntax.loadText_of_decode_error hdecode] at hload
    cases hload
  | ok data =>
    rw [Syntax.loadText_of_decode hdecode] at hload
    have hunwalkable : Syntax.Contains (Syntax.Faulty .partsNotWalkable) data := Syntax.contains_of_load nofun hload
    exact ⟨data, hread, rfl, hload, hunwalkable⟩

/-- A directory stands for some files, if only for none. -/
theorem exists_sliceFiles_of_directory {there : Target} (hthere : d.resolve (Path.normalized target) = .ok there)
    (hdirectory : there.isDirectory = true) : ∃ files, Discovery.sliceFiles d target = .ok files := by
  unfold Discovery.sliceFiles
  dsimp only
  rw [hthere]
  rcases there with ⟨place, _ | _ | entries⟩ | _
  · cases hdirectory
  · cases hdirectory
  · exact ⟨_, rfl⟩
  · cases hdirectory

/-- **The scan of a directory returns and isolates the slice files, unless one of them is a tree that no builder can
make anything of**; the scan then ends without any record. -/
theorem directory_scan_isolates_slices (limits : Limits) (o : Options) (c : Catalog) {d : Disk} {target : String}
    {there : Target} (hthere : d.resolve (Path.normalized target) = .ok there) (hdirectory : there.isDirectory = true) :
    ∃ files, Discovery.sliceFiles d target = .ok files ∧
      ((∃ s, scan limits o c d target = .ok s ∧ s.Isolates limits o c d files) ∨
        scan limits o c d target = .error .partsNotWalkable ∧ ∃ path ∈ files, Unbuildable limits d path) := by
  obtain ⟨files, hfiles⟩ := exists_sliceFiles_of_directory hthere hdirectory
  refine ⟨files, hfiles, ?_⟩
  cases hscan : scan limits o c d target with
  | ok s => exact .inl ⟨s, rfl, isolates_of_scan hfiles hscan⟩
  | error e =>
    obtain ⟨rfl, hunbuildable⟩ := exists_unbuildable_of_scan hfiles hscan
    exact .inr ⟨rfl, hunbuildable⟩

theorem mixedFolder_isolates :
    let c : Catalog := ⟨[.build "XSS" ["$_GET"] [] ["echo"]]⟩
    ∃ files s, Discovery.sliceFiles mixedFolder "." = .ok files ∧ scan .standard {} c mixedFolder "." = .ok s ∧
      s.Isolates .standard {} c mixedFolder files ∧
      s.slices.map (fun r => (r.file, r.isFailed, r.verdict.violatedPatterns))
        = [("./broken.json", true, []), ("./print.json", false, ["XSS"]), ("./safe.json", false, [])] := by
  intro c
  have hthere : mixedFolder.resolve (Path.normalized ".")
      = .ok (.found ["work"] (.directory (mixedSlices.map fun f => (f.1, .file (Text.utf8Bytes f.2))))) := by
    with_unfolding_all rfl
  have hrecords : (scan .standard {} c mixedFolder ".").map
      (fun s => s.slices.map fun r => (r.file, r.isFailed, r.verdict.violatedPatterns))
        = .ok [("./broken.json", true, []), ("./print.json", false, ["XSS"]), ("./safe.json", false, [])] := by
    decide +kernel
  obtain ⟨files, hfiles, ⟨s, hscan, hisolates⟩ | ⟨hscan, -⟩⟩ := directory_scan_isolates_slices .standard {} c hthere rfl
  · rw [hscan] at hrecords
    exact ⟨files, s, hfiles, hscan, hisolates, Except.ok.inj hrecords⟩
  · rw [hscan] at hrecords
    cases hrecords

/-- **Not every slice file fails alone**: the parts of an interpolated text are a number in the first file, and the
second one has no record either. -/
theorem unwalkable_slice_ends_scan :
    let c : Catalog := ⟨[.build "XSS" ["$_GET"] ["clean"] ["echo"]]⟩
    let d := Disk.ofTexts
      [("a.json", "\x7b\"children\":[\x7b\"kind\":\"encapsed\",\"value\":5\x7d]\x7d"),
       ("b.json", "\x7b\"children\":[]\x7d")]
    Discovery.sliceFiles d "." = .ok ["./a.json", "./b.json"] ∧ scan .standard {} c d "." = .error .partsNotWalkable ∧
      (scanFile .standard {} c d "./b.json").map (·.error?) = .ok none := by
  decide +kernel

end TaintFlow
