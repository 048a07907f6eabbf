/-
  TaintFlow.Proofs.Scanning
  ─────────────────────────
  **What becomes of a slice file, and of all files of a target.**

    • `Scanned` — the ways in which a record comes about: the file cannot be read, its tree is
      refused, its analysis is refused, or there is a conclusion,
    • `scanFile_eq_ok_iff`, `scanFile_eq_error_iff` — a file has such a record, unless no builder
      can make anything of its tree,
    • `scan_eq_ok_iff` — a scan has the records of the files that were found, one by one,
    • `Scanned.error_ne_empty` — every failure has a wording.
-/
import Mathlib.Data.List.Forall2
import TaintFlow.Proofs.Buildable
import TaintFlow.Scan

namespace TaintFlow

/-- Results can be compared, so that the scan of a fixed folder can be compared with what it should come to. -/
instance decidableEqResult {ε α : Type} [DecidableEq ε] [DecidableEq α] : DecidableEq (Except ε α)
  | .ok a, .ok b => if h : a = b then isTrue (congrArg Except.ok h) else isFalse fun heq => h (Except.ok.inj heq)
  | .error a, .error b =>
    if h : a = b then isTrue (congrArg Except.error h) else isFalse fun heq => h (Except.error.inj heq)
  | .ok _, .error _ => isFalse nofun
  | .error _, .ok _ => isFalse nofun

/-! ## §1. Lists of results. -/

/-- Results for all items of a list are results for each of them. -/
theorem mapM_eq_ok_iff {α β ε : Type} {f : α → Except ε β} {l : List α} {l' : List β} :
    l.mapM f = .ok l' ↔ List.Forall₂ (fun a b => f a = .ok b) l l' := by
  induction l generalizing l' with
  | nil => cases l' <;> simp [pure, Except.pure]
  | cons a l ih =>
    rw [List.mapM_cons]
    cases ha : f a with
    | error e =>
      constructor
      · intro h
        cases h
      · rintro (_ | ⟨hb, -⟩)
        rw [ha] at hb
        cases hb
    | ok b =>
      cases hl : l.mapM f with
      | error e =>
        constructor
        · intro h
          cases h
        · rintro (_ | ⟨-, hrest⟩)
          rw [ih.2 hrest] at hl
          cases hl
      | ok bs =>
        constructor
        · intro h
          obtain rfl := Except.ok.inj h
          exact .cons ha (ih.1 hl)
        · rintro (_ | ⟨hb, hrest⟩)
          rw [ha] at hb
          rw [ih.2 hrest] at hl
          rw [Except.ok.inj hb, ← Except.ok.inj hl]
          rfl

/-- An error for a list is the error of the first item that has none but an error. -/
theorem mapM_eq_error_iff {α β ε : Type} {f : α → Except ε β} {l : List α} {e : ε} :
    l.mapM f = .error e ↔
      ∃ before a after, l = before ++ a :: after ∧ (∀ b ∈ before, ∃ y, f b = .ok y) ∧ f a = .error e := by
  induction l with
  | nil => simp [pure, Except.pure]
  | cons x l ih =>
    rw [List.mapM_cons]
    cases hx : f x with
    | error e' =>
      constructor
      · intro h
        obtain rfl := Except.error.inj h
        exact ⟨[], x, l, rfl, nofun, hx⟩
      · rintro ⟨before, a, after, hl, hbefore, ha⟩
        cases before with
        | nil =>
          obtain ⟨rfl, -⟩ := List.cons.inj hl
          rw [hx] at ha
          exact congrArg Except.error (Except.error.inj ha)
        | cons b before =>
          obtain ⟨rfl, -⟩ := List.cons.inj hl
          obtain ⟨y, hy⟩ := hbefore x List.mem_cons_self
          rw [hx] at hy
          cases hy
    | ok y =>
      have hrest : (do let ys ← l.mapM f; pure (y :: ys)) = (.error e : Except ε (List β)) ↔ l.mapM f = .error e := by
        cases l.mapM f with
        | error e' => exact Iff.rfl
        | ok ys => exact ⟨nofun, nofun⟩
      show (do let ys ← l.mapM f; pure (y :: ys)) = (.error e : Except ε (List β)) ↔ _
      rw [hrest, ih]
      constructor
      · rintro ⟨before, a, after, rfl, hbefore, ha⟩
        exact ⟨x :: before, a, after, rfl, List.forall_mem_cons.2 ⟨⟨y, hx⟩, hbefore⟩, ha⟩
      · rintro ⟨before, a, after, hl, hbefore, ha⟩
        cases before with
        | nil =>
          obtain ⟨rfl, -⟩ := List.cons.inj hl
          rw [hx] at ha
          cases ha
        | cons b before =>
          obtain ⟨-, rfl⟩ := List.cons.inj hl
          exact ⟨before, a, after, rfl, (List.forall_mem_cons.1 hbefore).2, ha⟩

/-! ## §2. Wordings. -/

theorem append_ne_empty {a : String} (h : a ≠ "") (b : String) : a ++ b ≠ "" :=
  fun hab => h (String.append_eq_empty_iff.1 hab).1

theorem DiskFault.message_ne_empty (fault : DiskFault) (path : String) : fault.message path ≠ "" := by
  cases fault <;> simp [message, number?, words, String.append_eq_empty_iff]

theorem Syntax.Rejection.message_ne_empty (why : Rejection) : why.message ≠ "" := by
  cases why with
  | rootNotAnObject typeName => exact append_ne_empty (by decide) _
  | notJson cause => exact append_ne_empty (by decide) _
  | textTooDeep => decide
  | treeTooDeep => decide
  | unreadable path fault => exact append_ne_empty (append_ne_empty (append_ne_empty (by decide) _) _) _

/-! ## §3. One file. -/

namespace SliceRecord

variable {r : SliceRecord}

/-- A slice that failed has an empty verdict. -/
theorem verdict_of_failed (h : r.isFailed = true) : r.verdict = {} := by
  rcases r with ⟨file, digest, error | conclusion⟩
  · rfl
  · cases h

theorem isVulnerable_of_failed (h : r.isFailed = true) : r.isVulnerable = false := by
  unfold isVulnerable
  rw [verdict_of_failed h]

end SliceRecord

/-- **How the record of a file comes about.** -/
inductive Scanned (limits : Limits) (o : Options) (c : Catalog) (d : Disk) (path : String) : SliceRecord → Prop where
  | unreadable {fault : DiskFault} (hread : d.readBytes path = .error fault) :
    Scanned limits o c d path ⟨path, none, .failed (fault.message path)⟩
  | rejected {bytes : List UInt8} {why : Syntax.Rejection} (hread : d.readBytes path = .ok bytes)
    (hload : (Syntax.loadText limits (Disk.textOfBytes bytes)).1 = .error (.rejected why)) :
    Scanned limits o c d path ⟨path, some (Sha256.hexDigest bytes), .failed why.message⟩
  | tooDeep {bytes : List UInt8} {p : Program} (hread : d.readBytes path = .ok bytes)
    (hload : (Syntax.loadText limits (Disk.textOfBytes bytes)).1 = .ok p)
    (hdepth : limits.cond o.blockStrategy < condDepthAll o p.children) :
    Scanned limits o c d path ⟨path, some (Sha256.hexDigest bytes), .failed tooDeepMessage⟩
  | concluded {bytes : List UInt8} {p : Program} (hread : d.readBytes path = .ok bytes)
    (hload : (Syntax.loadText limits (Disk.textOfBytes bytes)).1 = .ok p)
    (hdepth : condDepthAll o p.children ≤ limits.cond o.blockStrategy) :
    Scanned limits o c d path ⟨path, some (Sha256.hexDigest bytes), .concluded (p.run o c ∅).conclude⟩

theorem load_ne_impossiblePath (limits : Limits) (data : Datum) :
    (Syntax.load limits data).1 ≠ .error .impossiblePath := by
  intro h
  obtain ⟨why, hload⟩ | hload | ⟨_, _, ⟨(_ | _ | _) | _, notes⟩, _, hload⟩ := Syntax.load_cases limits data {} <;>
    rw [hload] at h <;> cases h

theorem loadText_ne_impossiblePath (limits : Limits) (text : String) :
    (Syntax.loadText limits text).1 ≠ .error .impossiblePath := by
  intro h
  cases hdecode : Syntax.decode limits text with
  | error why =>
    rw [Syntax.loadText_of_decode_error hdecode] at h
    cases h
  | ok data =>
    rw [Syntax.loadText_of_decode hdecode] at h
    exact load_ne_impossiblePath limits data h

section File

variable {limits : Limits} {o : Options} {c : Catalog} {d : Disk} {path : String}

theorem scanFile_of_unreadable {fault : DiskFault} (hread : d.readBytes path = .error fault) :
    scanFile limits o c d path = .ok ⟨path, none, .failed (fault.message path)⟩ := by
  simp only [scanFile, hread]

theorem scanFile_of_bytes {bytes : List UInt8} (hread : d.readBytes path = .ok bytes) :
    scanFile limits o c d path = (Outcome.ofResult (analyzeText limits o c (Disk.textOfBytes bytes))).map
      fun outcome => ⟨path, some (Sha256.hexDigest bytes), outcome⟩ := by
  simp only [scanFile, hread]
  cases Outcome.ofResult (analyzeText limits o c (Disk.textOfBytes bytes)) <;> rfl

theorem analyzeText_of_error {text : String} {e : Syntax.LoadError}
    (hload : (Syntax.loadText limits text).1 = .error e) : analyzeText limits o c text = .error (.load e) := by
  simp only [analyzeText, hload]

/-- A tree from a text is analysed without the counts of its loading. -/
theorem analyzeText_of_ok {text : String} {p : Program} (hload : (Syntax.loadText limits text).1 = .ok p) :
    analyzeText limits o c text
      = if condDepthAll o p.children ≤ limits.cond o.blockStrategy then .ok (p.run o c ∅).conclude
        else .error .tooDeep := by
  simp only [analyzeText, hload, Program.analyze]
  split <;> rfl

/-- What a scan does with a file, case by case. -/
theorem scanned_or_unwalkable (limits : Limits) (o : Options) (c : Catalog) (d : Disk) (path : String) :
    (∃ r, scanFile limits o c d path = .ok r ∧ Scanned limits o c d path r) ∨
      scanFile limits o c d path = .error .partsNotWalkable ∧ ∃ bytes, d.readBytes path = .ok bytes ∧
        (Syntax.loadText limits (Disk.textOfBytes bytes)).1 = .error .partsNotWalkable := by
  cases hread : d.readBytes path with
  | error fault => exact .inl ⟨_, scanFile_of_unreadable hread, .unreadable hread⟩
  | ok bytes =>
    rw [scanFile_of_bytes hread]
    cases hload : (Syntax.loadText limits (Disk.textOfBytes bytes)).1 with
    | error e =>
      rw [analyzeText_of_error hload]
      cases e with
      | rejected why => exact .inl ⟨_, rfl, .rejected hread hload⟩
      | partsNotWalkable => exact .inr ⟨rfl, bytes, rfl, hload⟩
      | unwritable => exact absurd hload (Syntax.loadText_ne_unwritable limits _ {})
      | impossiblePath => exact absurd hload (loadText_ne_impossiblePath limits _)
    | ok p =>
      rw [analyzeText_of_ok hload]
      by_cases hdepth : condDepthAll o p.children ≤ limits.cond o.blockStrategy
      · rw [if_pos hdepth]
        exact .inl ⟨_, rfl, .concluded hread hload hdepth⟩
      · rw [if_neg hdepth]
        exact .inl ⟨_, rfl, .tooDeep hread hload (Nat.lt_of_not_le hdepth)⟩

/-- A file has one record at most. -/
theorem Scanned.scanFile_eq {r : SliceRecord} (h : Scanned limits o c d path r) : scanFile limits o c d path = .ok r := by
  cases h with
  | unreadable hread => exact scanFile_of_unreadable hread
  | rejected hread hload =>
    rw [scanFile_of_bytes hread, analyzeText_of_error hload]
    rfl
  | tooDeep hread hload hdepth =>
    rw [scanFile_of_bytes hread, analyzeText_of_ok hload, if_neg (Nat.not_le_of_lt hdepth)]
    rfl
  | concluded hread hload hdepth =>
    rw [scanFile_of_bytes hread, analyzeText_of_ok hload, if_pos hdepth]
    rfl

theorem scanFile_eq_ok_iff {r : SliceRecord} : scanFile limits o c d path = .ok r ↔ Scanned limits o c d path r := by
  constructor
  · intro h
    obtain ⟨r', hr', hscanned⟩ | ⟨herror, -⟩ := scanned_or_unwalkable limits o c d path
    · rw [hr'] at h
      rwa [← Except.ok.inj h]
    · rw [herror] at h
      cases h
  · exact Scanned.scanFile_eq

theorem scanFile_eq_error_iff {e : ScanError} :
    scanFile limits o c d path = .error e ↔ e = .partsNotWalkable ∧ ∃ bytes, d.readBytes path = .ok bytes ∧
      (Syntax.loadText limits (Disk.textOfBytes bytes)).1 = .error .partsNotWalkable := by
  constructor
  · intro h
    obtain ⟨r, hr, -⟩ | ⟨herror, hcause⟩ := scanned_or_unwalkable limits o c d path
    · rw [hr] at h
      cases h
    · rw [herror] at h
      exact ⟨(Except.error.inj h).symm, hcause⟩
  · rintro ⟨rfl, bytes, hread, hload⟩
    rw [scanFile_of_bytes hread, analyzeText_of_error hload]
    rfl

namespace Scanned

variable {r : SliceRecord}

theorem file_eq (h : Scanned limits o c d path r) : r.file = path := by
  cases h <;> rfl

/-- **Every failure has a wording.** -/
theorem error_ne_empty (h : Scanned limits o c d path r) {error : String} (herror : r.error? = some error) :
    error ≠ "" := by
  cases h with
  | unreadable hread =>
    obtain rfl := Option.some.inj herror
    exact DiskFault.message_ne_empty _ path
  | rejected hread hload =>
    obtain rfl := Option.some.inj herror
    exact Syntax.Rejection.message_ne_empty _
  | tooDeep hread hload hdepth =>
    obtain rfl := Option.some.inj herror
    decide
  | concluded hread hload hdepth => cases herror

end Scanned

end File

/-! ## §4. All files. -/

section Target

variable {limits : Limits} {o : Options} {c : Catalog} {d : Disk} {target : String}

theorem scan_of_files {files : List String} (hfiles : Discovery.sliceFiles d target = .ok files) :
    scan limits o c d target = (files.mapM (scanFile limits o c d)).map fun slices => ⟨target, c.names, slices⟩ := by
  unfold scan
  rw [hfiles]
  cases hslices : files.mapM (scanFile limits o c d) <;> simp only [Except.mapError, bind, Except.bind, hslices] <;> rfl

/-- **A scan has the records of the files that were found, one by one.** -/
theorem scan_eq_ok_iff {s : Scan} :
    scan limits o c d target = .ok s ↔ s.target = target ∧ s.patterns = c.names ∧
      ∃ files, Discovery.sliceFiles d target = .ok files ∧ List.Forall₂ (Scanned limits o c d) files s.slices := by
  have hrecords : ∀ {files : List String} {slices : List SliceRecord},
      files.mapM (scanFile limits o c d) = .ok slices ↔ List.Forall₂ (Scanned limits o c d) files slices := by
    simp only [mapM_eq_ok_iff, scanFile_eq_ok_iff, implies_true]
  constructor
  · intro h
    cases hfiles : Discovery.sliceFiles d target with
    | error fault =>
      unfold scan at h
      rw [hfiles] at h
      cases h
    | ok files =>
      rw [scan_of_files hfiles] at h
      cases hslices : files.mapM (scanFile limits o c d) with
      | error e =>
        rw [hslices] at h
        cases h
      | ok slices =>
        rw [hslices] at h
        obtain rfl := Except.ok.inj h
        exact ⟨rfl, rfl, files, rfl, hrecords.1 hslices⟩
  · rintro ⟨rfl, hpatterns, files, hfiles, hscanned⟩
    rw [scan_of_files hfiles, hrecords.2 hscanned, ← hpatterns]
    rfl

/-- The records stand in the order of their files. -/
theorem files_of_scanned {files : List String} {slices : List SliceRecord}
    (h : List.Forall₂ (Scanned limits o c d) files slices) : slices.map (·.file) = files := by
  induction h with
  | nil => rfl
  | cons hfirst _ ih => rw [List.map_cons, hfirst.file_eq, ih]

/-- A scan of files that were found ends early only for one that has no record. -/
theorem scan_eq_error {files : List String} {e : ScanError} (hfiles : Discovery.sliceFiles d target = .ok files)
    (h : scan limits o c d target = .error e) :
    e = .partsNotWalkable ∧ ∃ path ∈ files, ∃ bytes, d.readBytes path = .ok bytes ∧
      (Syntax.loadText limits (Disk.textOfBytes bytes)).1 = .error .partsNotWalkable := by
  rw [scan_of_files hfiles] at h
  have hslices : files.mapM (scanFile limits o c d) = .error e := by
    cases hfound : files.mapM (scanFile limits o c d) with
    | error e' =>
      rw [hfound] at h
      exact congrArg Except.error (Except.error.inj h)
    | ok slices =>
      rw [hfound] at h
      cases h
  obtain ⟨before, path, after, rfl, -, hfile⟩ := mapM_eq_error_iff.1 hslices
  have hpath : path ∈ before ++ path :: after := List.mem_append_cons_self
  obtain ⟨he, hcause⟩ := scanFile_eq_error_iff.1 hfile
  exact ⟨he, path, hpath, hcause⟩

/-- A record of a scan is the record of its file. -/
theorem scanned_of_mem {s : Scan} (h : scan limits o c d target = .ok s) {r : SliceRecord} (hr : r ∈ s.slices) :
    Scanned limits o c d r.file r := by
  obtain ⟨-, -, files, -, hscanned⟩ := scan_eq_ok_iff.1 h
  obtain ⟨i, hi, rfl⟩ := List.getElem_of_mem hr
  have hpath := hscanned.get (hscanned.length_eq ▸ hi) hi
  rwa [List.get_eq_getElem, List.get_eq_getElem, ← hpath.file_eq] at hpath

end Target

/-! ## §5. Folders. -/

/-- The disk with the given files, by name and text, in the directory that the program runs in. -/
def Disk.ofTexts (files : List (String × String)) : Disk :=
  .alone ["work"] (files.map fun f => (f.1, .file (Text.utf8Bytes f.2)))

/-- Three slices: one is no tree, one prints input, and one is safe. -/
def mixedSlices : List (String × String) :=
  [("broken.json", "["),
   ("print.json", "\x7b\"children\":[\x7b\"kind\":\"echo\",\"arguments\":[" ++
     "\x7b\"kind\":\"offsetlookup\",\"what\":\x7b\"name\":\"_GET\"\x7d\x7d]\x7d]\x7d"),
   ("safe.json", "\x7b\x7d")]

/-- A folder with these slices. -/
def mixedFolder : Disk := .ofTexts mixedSlices

end TaintFlow
