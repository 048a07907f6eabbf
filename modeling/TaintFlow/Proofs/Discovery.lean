/-
  TaintFlow.Proofs.Discovery
  ──────────────────────────
  **Which files a directory stands for.**

  An entry below a directory has a way that leads down to it: the directories in between, each of
  which is a directory itself or a link to one.  The walk lists an entry for what its way and its
  name are like, and this module says that it lists those entries and no others.

    • `Leads` — the ways down, through directories and through links to directories,
    • `IsSlice` — what a way and the entry at its end must be like,
    • `Leads.unique` — the names on a way tell the way,
    • `exists_leads_of_mem_ofEntry`, `Leads.mem_ofEntries` — the walk goes down the ways to slice files,
      down all of them and no others,
    • `nodup_ofEntries` — no path is found twice.
-/
import Mathlib.Data.List.Nodup
import TaintFlow.Files.Discovery
import TaintFlow.Proofs.Directories

namespace TaintFlow

/-! ## §1. Ways down. -/

namespace Discovery

/-- A directory on the way to an entry: its name, and whether a link with that name stands for it. -/
structure Step where
  name : String
  linked : Bool

/-- **The ways down.**  From the directory at a place, which has the given entries, a way leads through directories
and through links to directories to the entry `e` with the given name in the directory at `last`. -/
inductive Leads (d : Disk) (last : Place) (name : String) (e : Entry) :
    Place → List (String × Entry) → List Step → Prop where
  | here {entries : List (String × Entry)} : (name, e) ∈ entries → Leads d last name e last entries []
  | directory {place : Place} {entries inner : List (String × Entry)} {n : String} {way : List Step} :
      (n, .directory inner) ∈ entries → Leads d last name e (place ++ [n]) inner way →
      Leads d last name e place entries (⟨n, false⟩ :: way)
  | link {place there : Place} {entries inner : List (String × Entry)} {n target : String} {way : List Step} :
      (n, .link target) ∈ entries → d.followLink place target = .ok (.found there (.directory inner)) →
      Leads d last name e there inner way → Leads d last name e place entries (⟨n, true⟩ :: way)

/-- The names on a way to an entry, and then its own. -/
def namesOn (way : List Step) (name : String) : List String := way.map (·.name) ++ [name]

theorem namesOn_ne_nil (way : List Step) (name : String) : namesOn way name ≠ [] :=
  List.append_ne_nil_of_right_ne_nil _ (List.cons_ne_nil _ _)

/-- A way through a directory has more names than none. -/
theorem namesOn_ne_singleton (step : Step) (way : List Step) (n name : String) :
    [n] ≠ step.name :: namesOn way name := by
  intro h
  exact namesOn_ne_nil way name (List.cons.inj h).2.symm

/-- Is the entry of the directory at a place a directory itself, or a link to one? -/
def IsDirectory (d : Disk) (place : Place) : Entry → Prop
  | .file _ => False
  | .directory _ => True
  | .link target => ∃ there, d.followLink place target = .ok there ∧ there.isDirectory = true

/-- **What makes an entry a slice file**: it is not a directory, its suffix reads `.json` in small letters, and on the
way to it there are directories only, none of them hidden or one of those that are left out. -/
structure IsSlice (d : Disk) (way : List Step) (last : Place) (name : String) (e : Entry) : Prop where
  notDirectory : ¬ IsDirectory d last e
  suffix : ∃ suffix, Path.IsSuffix name suffix ∧ Text.lowercase suffix = ".json"
  entered : ∀ step ∈ way, step.linked = false ∧ step.name.toList.head? ≠ some '.' ∧ step.name ∉ skippedDirectories

/-- A slice file is named with a suffix that reads `.json` in small letters. -/
theorem isSliceName_iff {name : String} :
    isSliceName name = true ↔ ∃ suffix, Path.IsSuffix name suffix ∧ Text.lowercase suffix = ".json" := by
  unfold isSliceName suffixes
  rw [decide_eq_true_iff, List.mem_singleton]
  constructor
  · intro h
    refine ⟨Path.suffix name, Path.isSuffix_of_suffix ?_, h⟩
    intro hempty
    rw [hempty] at h
    exact absurd h (by decide)
  · rintro ⟨suffix, hsuffix, hlower⟩
    rw [Path.suffix_of_isSuffix hsuffix, hlower]

theorem isEntered_iff {name : String} :
    isEntered name = true ↔ name.toList.head? ≠ some '.' ∧ name ∉ skippedDirectories := by
  have hdot : Text.startsWith name "." = true ↔ name.toList.head? = some '.' := by
    unfold Text.startsWith
    show ['.'].isPrefixOf name.toList = true ↔ _
    cases name.toList with
    | nil => simp
    | cons c rest =>
      simp only [List.isPrefixOf, Bool.and_true, beq_iff_eq, List.head?_cons, Option.some.injEq]
      exact eq_comm
  unfold isEntered
  rw [Bool.and_eq_true, Bool.not_eq_true', ← Bool.not_eq_true, hdot, decide_eq_true_iff]

theorem isDirectory_link_iff {d : Disk} {place : Place} {target : String} :
    IsDirectory d place (.link target) ↔ leadsToDirectory d place target = true := by
  show (∃ there, d.followLink place target = .ok there ∧ there.isDirectory = true) ↔ _
  unfold leadsToDirectory
  cases d.followLink place target with
  | ok there => simp
  | error fault => simp

variable {d : Disk} {last place : Place} {path name : String} {e : Entry} {entries : List (String × Entry)}
  {way : List Step}

/-- The names on a way are names that entries can have. -/
theorem Leads.isEntryName (hroot : d.root.WellNamed) (h : Leads d last name e place entries way)
    (hentries : (Entry.directory entries).WellNamed) : ∀ n ∈ namesOn way name, Path.IsEntryName n := by
  induction h with
  | here hmem =>
    intro n hn
    rw [List.mem_singleton.1 hn]
    exact hentries.isEntryName hmem
  | directory hmem _ ih => exact List.forall_mem_cons.2 ⟨hentries.isEntryName hmem, ih (hentries.of_mem hmem)⟩
  | link hmem hfollow _ ih =>
    have hthere := Disk.wellNamed_entryAt hroot (Disk.entryAt_of_followLink hfollow)
    exact List.forall_mem_cons.2 ⟨hentries.isEntryName hmem, ih hthere⟩

/-- **The names tell the way**, and the entry that it leads to. -/
theorem Leads.unique (hroot : d.root.WellNamed) (h : Leads d last name e place entries way)
    (hentries : (Entry.directory entries).WellNamed) {last' : Place} {name' : String} {e' : Entry} {way' : List Step}
    (h' : Leads d last' name' e' place entries way') (hnames : namesOn way name = namesOn way' name') :
    last = last' ∧ name = name' ∧ e = e' ∧ way = way' := by
  induction h generalizing way' with
  | here hmem =>
    cases h' with
    | here hmem' =>
      obtain rfl : name = name' := List.singleton_inj.1 hnames
      exact ⟨rfl, rfl, hentries.eq_of_mem hmem hmem', rfl⟩
    | directory | link => exact absurd hnames (namesOn_ne_singleton _ _ _ _)
  | @directory place entries inner n way hmem _ ih =>
    cases h' with
    | here => exact absurd hnames.symm (namesOn_ne_singleton ⟨n, false⟩ way _ _)
    | directory hmem' hrest' =>
      obtain ⟨rfl, hrest⟩ := List.cons.inj hnames
      cases hentries.eq_of_mem hmem hmem'
      obtain ⟨hlast, hname, he, rfl⟩ := ih (hentries.of_mem hmem) hrest' hrest
      exact ⟨hlast, hname, he, rfl⟩
    | link hmem' =>
      obtain ⟨rfl, -⟩ := List.cons.inj hnames
      cases hentries.eq_of_mem hmem hmem'
  | @link place there entries inner n target way hmem hfollow _ ih =>
    cases h' with
    | here => exact absurd hnames.symm (namesOn_ne_singleton ⟨n, true⟩ way _ _)
    | directory hmem' hrest' =>
      obtain ⟨rfl, -⟩ := List.cons.inj hnames
      cases hentries.eq_of_mem hmem hmem'
    | link hmem' hfollow' hrest' =>
      obtain ⟨rfl, hrest⟩ := List.cons.inj hnames
      cases hentries.eq_of_mem hmem hmem'
      cases hfollow.symm.trans hfollow'
      have hthere := Disk.wellNamed_entryAt hroot (Disk.entryAt_of_followLink hfollow)
      obtain ⟨hlast, hname, he, rfl⟩ := ih hthere hrest' hrest
      exact ⟨hlast, hname, he, rfl⟩

/-! ## §2. The walk. -/

theorem ofEntries_eq_flatMap (d : Disk) (place : Place) (path : String) (entries : List (String × Entry)) :
    ofEntries d place path entries = entries.flatMap fun e => ofEntry d place path e.1 e.2 := by
  induction entries with
  | nil => rfl
  | cons e rest ih =>
    show ofEntry d place path e.1 e.2 ++ ofEntries d place path rest = _
    rw [ih, List.flatMap_cons]

theorem mem_ofEntries {p : String} :
    p ∈ ofEntries d place path entries ↔ ∃ e ∈ entries, p ∈ ofEntry d place path e.1 e.2 := by
  rw [ofEntries_eq_flatMap, List.mem_flatMap]

/-- An entry that is no directory is listed under its own path, or not at all. -/
theorem mem_ofEntry_of_leaf {p : String} (h : ∀ inner, e ≠ .directory inner) :
    p ∈ ofEntry d place path name e ↔
      (isSliceName name = true ∧ ¬ IsDirectory d place e) ∧ p = Path.join path name := by
  cases e with
  | file bytes =>
    unfold ofEntry
    by_cases hname : isSliceName name = true <;> simp [hname, IsDirectory]
  | link target =>
    rw [isDirectory_link_iff]
    unfold ofEntry
    cases isSliceName name <;> cases leadsToDirectory d place target <;> simp
  | directory inner => exact absurd rfl (h inner)

/-- What is below a directory is listed if the directory is entered. -/
theorem mem_ofEntry_directory {p : String} {inner : List (String × Entry)} :
    p ∈ ofEntry d place path name (.directory inner) ↔
      isEntered name = true ∧ p ∈ ofEntries d (place ++ [name]) (Path.join path name) inner := by
  unfold ofEntry
  by_cases h : isEntered name = true <;> simp [h]

/-- The walk goes down ways to slice files only. -/
theorem exists_leads_of_mem_ofEntry (he : e.WellNamed) {p : String} (hp : p ∈ ofEntry d place path name e)
    (hmem : (name, e) ∈ entries) : ∃ way last n e', Leads d last n e' place entries way ∧ IsSlice d way last n e' ∧
      p = Path.below path (namesOn way n) := by
  induction he generalizing place path name entries with
  | file bytes =>
    obtain ⟨⟨hname, hfile⟩, rfl⟩ := (mem_ofEntry_of_leaf (by simp)).1 hp
    exact ⟨[], place, name, _, .here hmem, ⟨hfile, isSliceName_iff.1 hname, by simp⟩, rfl⟩
  | link target =>
    obtain ⟨⟨hname, hfile⟩, rfl⟩ := (mem_ofEntry_of_leaf (by simp)).1 hp
    exact ⟨[], place, name, _, .here hmem, ⟨hfile, isSliceName_iff.1 hname, by simp⟩, rfl⟩
  | directory hkeys hnames hinner ih =>
    obtain ⟨hentered, hp⟩ := mem_ofEntry_directory.1 hp
    obtain ⟨⟨n, e⟩, he, hp⟩ := mem_ofEntries.1 hp
    obtain ⟨way, last, n', e', hleads, hslice, rfl⟩ := ih _ he hp he
    refine ⟨⟨name, false⟩ :: way, last, n', e', .directory hmem hleads, ?_, rfl⟩
    refine ⟨hslice.notDirectory, hslice.suffix, List.forall_mem_cons.2 ⟨?_, hslice.entered⟩⟩
    exact ⟨rfl, isEntered_iff.1 hentered⟩

/-- The walk goes down every way to a slice file. -/
theorem Leads.mem_ofEntries (h : Leads d last name e place entries way) (hslice : IsSlice d way last name e)
    (path : String) : Path.below path (namesOn way name) ∈ ofEntries d place path entries := by
  induction h generalizing path with
  | here hmem =>
    rw [Discovery.mem_ofEntries]
    refine ⟨_, hmem, ?_⟩
    refine (mem_ofEntry_of_leaf fun inner hinner => ?_).2
      ⟨⟨isSliceName_iff.2 hslice.suffix, hslice.notDirectory⟩, rfl⟩
    subst hinner
    exact hslice.notDirectory trivial
  | directory hmem _ ih =>
    obtain ⟨hfirst, hrest⟩ := List.forall_mem_cons.1 hslice.entered
    rw [Discovery.mem_ofEntries]
    refine ⟨_, hmem, mem_ofEntry_directory.2 ⟨isEntered_iff.2 hfirst.2, ?_⟩⟩
    exact ih ⟨hslice.notDirectory, hslice.suffix, hrest⟩ _
  | link =>
    -- a way through a link does not lead to a slice file
    have hlinked := (List.forall_mem_cons.1 hslice.entered).1.1
    cases hlinked

/-- What is listed of an entry has the entry's name right below the path. -/
theorem exists_names_of_mem_ofEntry (he : e.WellNamed) {p : String} (hp : p ∈ ofEntry d place path name e) :
    ∃ names, (∀ n ∈ names, Path.IsEntryName n) ∧ p = Path.below path (name :: names) := by
  induction he generalizing place path name with
  | file | link =>
    obtain ⟨-, rfl⟩ := (mem_ofEntry_of_leaf (by simp)).1 hp
    exact ⟨[], by simp, rfl⟩
  | directory _ hnames _ ih =>
    obtain ⟨⟨n, e⟩, he, hp⟩ := mem_ofEntries.1 (mem_ofEntry_directory.1 hp).2
    obtain ⟨names, hvalid, rfl⟩ := ih _ he hp
    exact ⟨n :: names, List.forall_mem_cons.2 ⟨hnames _ he, hvalid⟩, rfl⟩

theorem nodup_ofEntries_of_forall (hentries : (Entry.directory entries).WellNamed)
    (h : ∀ e ∈ entries, (ofEntry d place path e.1 e.2).Nodup) : (ofEntries d place path entries).Nodup := by
  rw [ofEntries_eq_flatMap, List.nodup_flatMap]
  refine ⟨h, ?_⟩
  -- paths of different entries differ in the name right below the directory
  have hkeys : entries.Pairwise fun a b => a.1 ≠ b.1 := by
    cases hentries with
    | directory hkeys _ _ => exact List.pairwise_map.1 hkeys
  refine hkeys.imp_of_mem fun {a b} ha hb hne p hpa hpb => ?_
  obtain ⟨names, hnames, rfl⟩ := exists_names_of_mem_ofEntry (hentries.of_mem ha) hpa
  obtain ⟨names', hnames', heq⟩ := exists_names_of_mem_ofEntry (hentries.of_mem hb) hpb
  have hsame := Path.below_inj (List.forall_mem_cons.2 ⟨hentries.isEntryName ha, hnames⟩)
    (List.forall_mem_cons.2 ⟨hentries.isEntryName hb, hnames'⟩) (List.cons_ne_nil _ _) (List.cons_ne_nil _ _) heq
  exact hne (List.cons.inj hsame).1

theorem nodup_ofEntry (he : e.WellNamed) (d : Disk) (place : Place) (path name : String) :
    (ofEntry d place path name e).Nodup := by
  induction he generalizing place path name with
  | file | link =>
    unfold ofEntry
    split <;> simp
  | directory hkeys hnames hinner ih =>
    unfold ofEntry
    split
    · exact nodup_ofEntries_of_forall (.directory hkeys hnames hinner) fun e he => ih e he _ _ _
    · exact List.nodup_nil

/-- **No path is found twice.** -/
theorem nodup_ofEntries (hentries : (Entry.directory entries).WellNamed) :
    (ofEntries d place path entries).Nodup :=
  nodup_ofEntries_of_forall hentries fun _ he => nodup_ofEntry (hentries.of_mem he) _ _ _ _

/-! ## §3. The files of a directory. -/

/-- A path is found exactly if the way that it tells leads to a slice file. -/
theorem below_mem_ofEntries_iff (hroot : d.root.WellNamed) (hentries : (Entry.directory entries).WellNamed)
    (h : Leads d last name e place entries way) :
    Path.below path (namesOn way name) ∈ ofEntries d place path entries ↔ IsSlice d way last name e := by
  constructor
  · intro hmem
    obtain ⟨⟨n, e₁⟩, he₁, hmem⟩ := mem_ofEntries.1 hmem
    obtain ⟨way', last', name', e', h', hslice, heq⟩ :=
      exists_leads_of_mem_ofEntry (hentries.of_mem he₁) hmem he₁
    have hnames := Path.below_inj (h.isEntryName hroot hentries) (h'.isEntryName hroot hentries)
      (namesOn_ne_nil _ _) (namesOn_ne_nil _ _) heq
    obtain ⟨rfl, rfl, rfl, rfl⟩ := h.unique hroot hentries h' hnames
    exact hslice
  · intro hslice
    exact h.mem_ofEntries hslice path

/-- **A directory stands for exactly the slice files below it**, wherever it is and however its path and the links in it
are given.  The paths are listed in increasing order and none of them twice, although nothing that the walk finds is
dropped; the path of an entry below the directory is among them exactly if the entry is a slice file; and nothing else
is. -/
theorem directory_lists_exactly_its_slices (hroot : d.root.WellNamed) {target : String}
    (htarget : d.resolve (Path.normalized target) = .ok (.found place (.directory entries))) :
    ∃ files, sliceFiles d target = .ok files ∧ files.Pairwise (· < ·) ∧ files.Nodup ∧
      files.Perm (ofEntries d place (Path.normalized target) entries) ∧
      (∀ way last name e, Leads d last name e place entries way →
        (Path.below (Path.normalized target) (namesOn way name) ∈ files ↔ IsSlice d way last name e)) ∧
      ∀ path ∈ files, ∃ way last name e, Leads d last name e place entries way ∧
        path = Path.below (Path.normalized target) (namesOn way name) := by
  have hentries := Disk.wellNamed_entryAt hroot (Disk.entryAt_of_resolve htarget)
  let found := OrderedSet.ofList (ofEntries d place (Path.normalized target) entries)
  have hfiles : sliceFiles d target = .ok found.toList := by
    unfold sliceFiles
    dsimp only
    rw [htarget]
  have hsorted : found.toList.Pairwise (· < ·) := found.sorted.imp fun h => compareOfLessAndEq_eq_lt.1 h
  have hnodup : found.toList.Nodup := by
    refine hsorted.imp fun {a b} h => ?_
    rintro rfl
    exact String.lt_irrefl a h
  have hmem : ∀ p, p ∈ found.toList ↔ p ∈ ofEntries d place (Path.normalized target) entries :=
    fun p => OrderedSet.mem_ofList
  refine ⟨found.toList, hfiles, hsorted, hnodup,
    (List.perm_ext_iff_of_nodup hnodup (nodup_ofEntries hentries)).2 hmem, fun way last name e h => ?_, fun p hp => ?_⟩
  · rw [hmem]
    exact below_mem_ofEntries_iff hroot hentries h
  · obtain ⟨⟨n, e₁⟩, he₁, hp⟩ := mem_ofEntries.1 ((hmem p).1 hp)
    obtain ⟨way, last, name, e, h, -, heq⟩ := exists_leads_of_mem_ofEntry (hentries.of_mem he₁) hp he₁
    exact ⟨way, last, name, e, h, heq⟩

/-- A directory with a directory that is left out and one that is not. -/
def sources : List (String × Entry) :=
  [("..json", .file []), ("C.JSON", .file []), ("dist", .directory [("d.json", .file [])]),
   ("deep", .directory [("e.json", .file []), ("up", .link "..")])]

/-- Slice files at several depths, among a hidden directory, a name that only looks like that of a slice, and links: to
nothing, to a file and to a directory in another part of the disk, and to a directory beside them. -/
def slices : List (String × Entry) :=
  [("a.json", .file []), (".json", .file []), ("gone.json", .link "/nowhere"), ("lib.json", .link "/usr/lib.json"),
   ("usr.json", .link "/usr"), ("all.json", .link "src"), (".git", .directory [("b.json", .file [])]),
   ("src", .directory sources)]

/-- That directory is the one that the program runs in. -/
def scatteredSlices : Disk :=
  ⟨[("usr", .directory [("lib.json", .file [])]), ("home", .directory [("work", .directory slices)])], ["home", "work"]⟩

theorem wellNamed_scatteredSlices : scatteredSlices.root.WellNamed := by
  have hsingle : ∀ (name : String) (e : Entry), Path.IsEntryName name → e.WellNamed →
      (Entry.directory [(name, e)]).WellNamed := by
    intro name e hname he
    exact .directory (List.nodup_singleton name) (by simpa using hname) (by simpa using he)
  have hsources : (Entry.directory sources).WellNamed := by
    unfold sources
    refine .directory (by decide) (by decide) ?_
    simp only [List.forall_mem_cons, List.not_mem_nil, false_imp_iff, implies_true, and_true]
    refine ⟨.file _, .file _, hsingle "d.json" _ (by decide) (.file _), .directory (by decide) (by decide) ?_⟩
    simp only [List.forall_mem_cons, List.not_mem_nil, false_imp_iff, implies_true, and_true]
    exact ⟨.file _, .link _⟩
  have hslices : (Entry.directory slices).WellNamed := by
    unfold slices
    refine .directory (by decide) (by decide) ?_
    simp only [List.forall_mem_cons, List.not_mem_nil, false_imp_iff, implies_true, and_true]
    exact ⟨.file _, .file _, .link _, .link _, .link _, .link _, hsingle "b.json" _ (by decide) (.file _), hsources⟩
  unfold Disk.root scatteredSlices
  refine .directory (by decide) (by decide) ?_
  simp only [List.forall_mem_cons, List.not_mem_nil, false_imp_iff, implies_true, and_true]
  exact ⟨hsingle "lib.json" _ (by decide) (.file _), hsingle "work" _ (by decide) hslices⟩

/-- The directory is asked for by its place on the disk and as the one that the program runs in.  A link to a directory is
not listed, and a file that is seen through one is listed under its own directory only. -/
theorem scatteredSlices_lists_exactly :
    let files := ["a.json", "gone.json", "lib.json", "src/..json", "src/C.JSON", "src/deep/e.json"].map ("/home/work/" ++ ·)
    scatteredSlices.root.WellNamed ∧
      scatteredSlices.resolve (Path.normalized "/home/work") = .ok (.found ["home", "work"] (.directory slices)) ∧
      scatteredSlices.resolve (Path.normalized ".") = .ok (.found ["home", "work"] (.directory slices)) ∧
      sliceFiles scatteredSlices "/home/work" = .ok files ∧ files.Pairwise (· < ·) ∧
      Leads scatteredSlices ["home", "work"] "usr.json" (.link "/usr") ["home", "work"] slices [] ∧
      "/home/work/usr.json" ∉ files ∧
      Leads scatteredSlices ["home", "work", "src"] "C.JSON" (.file []) ["home", "work"] slices [⟨"all.json", true⟩] ∧
      "./all.json/C.JSON" ∉ (sliceFiles scatteredSlices ".").toOption.getD [] := by
  intro files
  have hthere : scatteredSlices.resolve (Path.normalized "/home/work")
      = .ok (.found ["home", "work"] (.directory slices)) := by
    with_unfolding_all rfl
  have hhere : scatteredSlices.resolve (Path.normalized ".") = .ok (.found ["home", "work"] (.directory slices)) := by
    with_unfolding_all rfl
  have husr : Leads scatteredSlices ["home", "work"] "usr.json" (.link "/usr") ["home", "work"] slices [] :=
    .here (by simp [slices])
  have hall : Leads scatteredSlices ["home", "work", "src"] "C.JSON" (.file []) ["home", "work"] slices
      [⟨"all.json", true⟩] := by
    have hfollow : scatteredSlices.followLink ["home", "work"] "src"
        = .ok (.found ["home", "work", "src"] (.directory sources)) := by
      with_unfolding_all rfl
    exact .link (by simp [slices]) hfollow (.here (by simp [sources]))
  have hfiles : sliceFiles scatteredSlices "/home/work" = .ok files := by decide +kernel
  obtain ⟨listed, hlisted, hsorted, -, -, hiff, -⟩ :=
    directory_lists_exactly_its_slices wellNamed_scatteredSlices hthere
  obtain rfl : listed = files := Except.ok.inj (hlisted.symm.trans hfiles)
  obtain ⟨listed', hlisted', -, -, -, hiff', -⟩ :=
    directory_lists_exactly_its_slices wellNamed_scatteredSlices hhere
  refine ⟨wellNamed_scatteredSlices, hthere, hhere, hfiles, hsorted, husr, fun hmem => ?_, hall, fun hmem => ?_⟩
  · have hfollow : scatteredSlices.followLink ["home", "work"] "/usr"
        = .ok (.found ["usr"] (.directory [("lib.json", .file [])])) := by
      with_unfolding_all rfl
    exact ((hiff _ _ _ _ husr).1 hmem).notDirectory ⟨_, hfollow, rfl⟩
  · rw [hlisted'] at hmem
    have hslice := (hiff' _ _ _ _ hall).1 hmem
    exact absurd (hslice.entered _ List.mem_cons_self).1 (by decide)

end Discovery

end TaintFlow
