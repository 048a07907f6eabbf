/-
  TaintFlow.Proofs.Directories
  ────────────────────────────
  **Trees of directories, and the paths in them.**

    • `Path.below_inj` — a path down from a directory tells the names on it,
    • `Path.isSuffix_of_suffix`, `Path.suffix_of_isSuffix` — what the suffix of a name is,
    • `Entry.WellNamed` — a tree of directories with the names that a file system allows,
    • `Disk.entryAt_of_followLink`, `Disk.entryAt_of_resolve` — where a path or a link ends, from wherever
      it is followed, the entry that it leads to stands there, so it is such a tree too.
-/
import Mathlib.Data.List.Basic
import TaintFlow.Files.Disk

namespace TaintFlow

/-! ## §1. Paths of names. -/

namespace Path

/-- Can an entry of a directory have this name? -/
def IsEntryName (name : String) : Prop := name ≠ "" ∧ '/' ∉ name.toList

instance (name : String) : Decidable (IsEntryName name) := inferInstanceAs (Decidable (_ ∧ _))

/-- The path that leads from a directory down through names. -/
def below (path : String) (names : List String) : String := names.foldl join path

/-- What stands in front of a name that is joined to a path. -/
def frontOf (path : String) : List Char :=
  if path = "" || Text.endsIn path "/" then path.toList else path.toList ++ ['/']

theorem endsIn_slash_iff {path : String} : Text.endsIn path "/" = true ↔ path.toList.getLast? = some '/' := by
  unfold Text.endsIn
  rw [List.getLast?_eq_head?_reverse]
  show ['/'].isPrefixOf path.toList.reverse = true ↔ _
  cases path.toList.reverse with
  | nil => simp
  | cons c rest =>
    simp only [List.isPrefixOf, Bool.and_true, beq_iff_eq, List.head?_cons, Option.some.injEq]
    exact eq_comm

variable {name : String}

theorem IsEntryName.toList_ne_nil (h : IsEntryName name) : name.toList ≠ [] := fun hnil =>
  h.1 (String.toList_inj.1 hnil)

theorem toList_join (h : IsEntryName name) (path : String) : (join path name).toList = frontOf path ++ name.toList := by
  have hrelative : isAbsolute name = false := by
    unfold isAbsolute Text.startsWith
    rw [Bool.eq_false_iff, ne_eq, List.isPrefixOf_iff_prefix]
    intro hslash
    exact h.2 (hslash.subset List.mem_cons_self)
  unfold join frontOf
  rw [hrelative, if_neg Bool.false_ne_true]
  split
  · exact String.toList_append
  · rw [String.toList_append, String.toList_append]
    rfl

/-- Behind a name there is always a slash to come. -/
theorem frontOf_join (h : IsEntryName name) (path : String) :
    frontOf (join path name) = frontOf path ++ name.toList ++ ['/'] := by
  have hlist := toList_join h path
  have hne : join path name ≠ "" := by
    intro hempty
    rw [hempty] at hlist
    exact h.toList_ne_nil (List.append_eq_nil_iff.1 hlist.symm).2
  have hend : ¬ Text.endsIn (join path name) "/" = true := by
    rw [endsIn_slash_iff, hlist, List.getLast?_append_of_ne_nil _ h.toList_ne_nil]
    exact fun hlast => h.2 (List.mem_of_getLast? hlast)
  unfold frontOf
  rw [if_neg (by simp [hne, hend]), hlist]
  rfl

theorem toList_below (path : String) {names : List String} (h : ∀ n ∈ names, IsEntryName n) (hne : names ≠ []) :
    (below path names).toList = frontOf path ++ ['/'].intercalate (names.map String.toList) := by
  induction names generalizing path with
  | nil => exact absurd rfl hne
  | cons n rest ih =>
    obtain ⟨hn, hrest⟩ := List.forall_mem_cons.1 h
    show (below (join path n) rest).toList = _
    by_cases hnil : rest = []
    · subst hnil
      rw [List.map_singleton, List.intercalate_singleton]
      exact toList_join hn path
    · obtain ⟨m, ms, rfl⟩ := List.exists_cons_of_ne_nil hnil
      rw [ih (join path n) hrest hnil, frontOf_join hn]
      simp only [List.map_cons, List.intercalate_cons_cons, List.append_assoc]

/-- **The path tells the names.** -/
theorem below_inj {path : String} {names names' : List String} (h : ∀ n ∈ names, IsEntryName n)
    (h' : ∀ n ∈ names', IsEntryName n) (hne : names ≠ []) (hne' : names' ≠ [])
    (heq : below path names = below path names') : names = names' := by
  have hlist := congrArg String.toList heq
  rw [toList_below path h hne, toList_below path h' hne', List.append_cancel_left_eq] at hlist
  have hsplit : ∀ {ns : List String}, (∀ n ∈ ns, IsEntryName n) → ns ≠ [] →
      (['/'].intercalate (ns.map String.toList)).splitOn '/' = ns.map String.toList := by
    intro ns hns hnil
    refine List.splitOn_intercalate '/' ?_ (by simpa using hnil)
    simpa using fun n hn => (hns n hn).2
  have hmap := congrArg (List.splitOn '/') hlist
  rw [hsplit h hne, hsplit h' hne'] at hmap
  exact List.map_injective_iff.2 (fun a b => String.toList_inj.1) hmap

/-! ## §2. Suffixes. -/

/-- The last dot of a name and what follows it are its suffix, if something stands on either side of the dot. -/
def IsSuffix (name suffix : String) : Prop :=
  ∃ stem ending : String, name = stem ++ "." ++ ending ∧ suffix = "." ++ ending ∧
    stem ≠ "" ∧ ending ≠ "" ∧ '.' ∉ ending.toList

/-- A name that is cut at its last dot, with the characters in reverse. -/
theorem reverse_cut_at_dot {stem ending : String} (h : name = stem ++ "." ++ ending) :
    name.toList.reverse = ending.toList.reverse ++ '.' :: stem.toList.reverse := by
  have hdot : (".").toList = ['.'] := rfl
  rw [h, String.toList_append, String.toList_append, hdot]
  simp

theorem suffix_of_isSuffix {s : String} (h : IsSuffix name s) : suffix name = s := by
  obtain ⟨stem, ending, hname, rfl, hstem, hending, hdots⟩ := h
  have hreverse := reverse_cut_at_dot hname
  have htail : name.toList.reverse.takeWhile (fun c => decide (c ≠ '.')) = ending.toList.reverse := by
    rw [hreverse, List.takeWhile_append_of_pos, List.takeWhile_cons_of_neg (by simp), List.append_nil]
    intro c hc
    rw [decide_eq_true_iff]
    intro heq
    exact hdots (heq ▸ List.mem_reverse.1 hc)
  have hstem : stem.toList ≠ [] := fun hnil => hstem (String.toList_inj.1 hnil)
  have hending : ending.toList ≠ [] := fun hnil => hending (String.toList_inj.1 hnil)
  have hlength := List.length_pos_iff.2 hstem
  unfold suffix
  dsimp only
  rw [htail, if_neg]
  · rw [List.reverse_reverse, ← String.toList_inj, String.toList_ofList, String.toList_append]
    rfl
  · rw [hreverse]
    simp only [Bool.or_eq_true, List.isEmpty_iff, List.reverse_eq_nil_iff, hending, decide_eq_true_iff, false_or,
      List.length_append, List.length_cons, List.length_reverse]
    omega

theorem isSuffix_of_suffix (h : suffix name ≠ "") : IsSuffix name (suffix name) := by
  -- the reversed name is the ending up to a first dot, then that dot, and then the stem
  have hcut := List.takeWhile_append_dropWhile (p := fun c => decide (c ≠ '.')) (l := name.toList.reverse)
  have hdots : '.' ∉ name.toList.reverse.takeWhile fun c => decide (c ≠ '.') := by
    intro hmem
    simpa using List.all_eq_true.1 List.all_takeWhile _ hmem
  have hdot := List.head?_dropWhile_not (fun c => decide (c ≠ '.')) name.toList.reverse
  unfold suffix at h ⊢
  dsimp only at h ⊢
  generalize name.toList.reverse.takeWhile (fun c => decide (c ≠ '.')) = ending at *
  generalize name.toList.reverse.dropWhile (fun c => decide (c ≠ '.')) = rest at *
  split at h
  · exact absurd rfl h
  · rename_i hlong
    rw [if_neg hlong]
    rw [← hcut] at hlong
    simp only [Bool.or_eq_true, List.isEmpty_iff, decide_eq_true_iff, List.length_append, not_or] at hlong
    cases rest with
    | nil =>
      rw [List.length_nil] at hlong
      omega
    | cons c stem =>
      obtain rfl : c = '.' := by simpa using hdot
      have hstem : stem ≠ [] := by
        rintro rfl
        simp at hlong
      have hname : name.toList = stem.reverse ++ '.' :: ending.reverse := by
        rw [← List.reverse_reverse name.toList, ← hcut]
        simp
      have hempty : ∀ {cs : List Char}, cs ≠ [] → String.ofList cs.reverse ≠ "" := by
        intro cs hcs heq
        rw [← String.toList_inj, String.toList_ofList] at heq
        exact hcs (List.reverse_eq_nil_iff.1 heq)
      refine ⟨String.ofList stem.reverse, String.ofList ending.reverse, ?_, ?_, hempty hstem, hempty hlong.1, ?_⟩
      · rw [← String.toList_inj, hname]
        simp
      · rw [← String.toList_inj]
        simp
      · simpa using hdots

end Path

/-! ## §3. Trees of directories. -/

/-- **A tree of directories**: the names in a directory are distinct, and each is one that an entry can have. -/
inductive Entry.WellNamed : Entry → Prop where
  | file (bytes : List UInt8) : WellNamed (.file bytes)
  | link (target : String) : WellNamed (.link target)
  | directory {entries : List (String × Entry)} : (Assoc.keys entries).Nodup →
      (∀ e ∈ entries, Path.IsEntryName e.1) → (∀ e ∈ entries, WellNamed e.2) → WellNamed (.directory entries)

namespace Entry.WellNamed

variable {entries : List (String × Entry)} {name : String} {a b : Entry}

theorem isEntryName (h : (Entry.directory entries).WellNamed) (ha : (name, a) ∈ entries) : Path.IsEntryName name := by
  cases h with
  | directory _ hnames _ => exact hnames _ ha

theorem of_mem (h : (Entry.directory entries).WellNamed) (ha : (name, a) ∈ entries) : a.WellNamed := by
  cases h with
  | directory _ _ hinner => exact hinner _ ha

/-- In a tree of directories a name stands for one entry. -/
theorem eq_of_mem (h : (Entry.directory entries).WellNamed) (ha : (name, a) ∈ entries) (hb : (name, b) ∈ entries) :
    a = b := by
  cases h with
  | directory hkeys _ _ =>
    have hget := Assoc.get?_of_mem hkeys ha
    rw [Assoc.get?_of_mem hkeys hb] at hget
    exact (Option.some.inj hget).symm

end Entry.WellNamed

namespace Disk

variable {d : Disk} {place : Place} {e : Entry}

/-- Where a path ends, the entry that it leads to stands at that place. -/
theorem entryAt_of_followBy {onLink : List String → Place → Except DiskFault Target}
    (hlink : ∀ components above, onLink components above = .ok (.found place e) → entryAt place d.root = some e)
    (components : List String) (above : Place) (h : followBy d onLink components above = .ok (.found place e)) :
    entryAt place d.root = some e := by
  fun_induction followBy d onLink components above with
  | case1 above e' hentry =>
    cases h
    exact hentry
  | case3 _ _ _ _ _ _ ih => exact ih h
  | case4 _ _ _ _ _ ih => exact ih h
  | case8 => exact hlink _ _ h
  | case9 _ _ _ _ _ _ _ _ _ _ _ ih => exact ih h
  | _ => cases h

theorem entryAt_of_follow (links : Nat) (components : List String) (above : Place)
    (h : d.follow links components above = .ok (.found place e)) : entryAt place d.root = some e := by
  induction links generalizing components above with
  | zero => cases h
  | succ links ih => exact entryAt_of_followBy ih components above h

theorem entryAt_of_followLink {start : Place} {target : String}
    (h : d.followLink start target = .ok (.found place e)) : entryAt place d.root = some e := by
  unfold followLink at h
  exact entryAt_of_follow _ _ _ h

theorem entryAt_of_resolve {path : String} (h : d.resolve path = .ok (.found place e)) :
    entryAt place d.root = some e := by
  have hlocate : d.locate path = .ok (.found place e) := by
    unfold resolve at h
    cases hlocate : d.locate path with
    | error fault =>
      rw [hlocate] at h
      cases h
    | ok there =>
      rw [hlocate] at h
      cases there with
      | absent => cases h
      | found => exact h
  unfold locate at hlocate
  split at hlocate
  · cases hlocate
  · exact entryAt_of_follow _ _ _ hlocate

theorem wellNamed_entryAt {root : Entry} (hroot : root.WellNamed) (hentry : entryAt place root = some e) :
    e.WellNamed := by
  induction place generalizing root with
  | nil =>
    cases hentry
    exact hroot
  | cons name rest ih =>
    cases hroot with
    | file | link => cases hentry
    | directory _ _ hinner =>
      obtain ⟨inner, hget, hrest⟩ := Option.bind_eq_some_iff.1 hentry
      exact ih (hinner _ (Assoc.mem_of_get? hget)) hrest

end Disk

end TaintFlow
