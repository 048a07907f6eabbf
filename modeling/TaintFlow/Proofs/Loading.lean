/-
  TaintFlow.Proofs.Loading
  ────────────────────────
  **What is in a catalog that was loaded.**

  Texts, records and documents are read by different functions, and each asks for the name of a
  pattern in its own way.  All patterns come of values (`Pattern.Built`), so their lists have names
  only and their own names have no blanks around them.  The name itself may be empty:

    • `readLines_loads` — never where it was read from a text,
    • `comesOf_of_patternOfRecord` — exactly where the record has a text of blanks for its name,
    • `blank_name_loads_empty` — which does happen,
    • `loaded_catalogs_are_trimmed` — what holds of the three ways of loading.
-/
import Mathlib.Data.List.Forall2
import TaintFlow.Pattern.Catalog
import TaintFlow.Proofs.Names

namespace TaintFlow.Catalog

open Text (IsTrimmed IsName)

/-! ## §1. Texts. -/

/-- Values make the pattern, and it has a name. -/
structure Loads (p : Pattern) : Prop where
  built : p.Built
  named : p.name ≠ ""

theorem built_ofLines (name entryPoints sanitizers sinks : String) :
    (Pattern.ofLines name entryPoints sanitizers sinks).Built :=
  ⟨.text name, .text entryPoints, .text sanitizers, .text sinks, rfl⟩

theorem mem_of_mem_dropExcessBlank {line : String} {group : List String} (h : line ∈ dropExcessBlank group) :
    line ∈ group := by
  induction group with
  | nil => exact h
  | cons first rest ih =>
    rw [dropExcessBlank] at h
    split at h
    · exact List.mem_cons_of_mem _ (ih h)
    · exact h

/-- The name of a group of trimmed lines is its first line, which is not empty. -/
theorem loads_of_patternOfGroup {group : List String} (hgroup : ∀ line ∈ group, IsTrimmed line) {number : Option Nat}
    {p : Pattern} (h : patternOfGroup group number = .ok p) : Loads p := by
  unfold patternOfGroup at h
  split at h
  · rename_i sinks sanitizers entryPoints name hlines
    split at h
    · cases h
    · rename_i hname
      cases h
      refine ⟨built_ofLines _ _ _ _, ?_⟩
      have hmem : name ∈ dropExcessBlank group := by
        rw [hlines]
        simp
      show Text.trim name ≠ ""
      rw [Text.trim_of_isTrimmed (hgroup name (mem_of_mem_dropExcessBlank hmem))]
      exact hname
  · cases h

/-- **Every pattern that is read from trimmed lines has a name.** -/
theorem readLines_loads {lines group : List String} {done : List Pattern} {number : Nat} {c : Catalog}
    (hlines : ∀ line ∈ lines, IsTrimmed line) (hgroup : ∀ line ∈ group, IsTrimmed line) (hdone : ∀ p ∈ done, Loads p)
    (h : readLines done group number lines = .ok c) : ∀ p ∈ c.patterns, Loads p := by
  -- the lines of the group and the patterns so far carry what is known of them from line to line
  induction lines generalizing group done number with
  | nil =>
    rw [readLines] at h
    split at h
    · cases hp : patternOfGroup group none with
      | error e =>
        rw [hp] at h
        cases h
      | ok p =>
        rw [hp] at h
        cases h
        intro q hq
        rcases List.mem_cons.1 (List.mem_reverse.1 hq) with rfl | hq
        · exact loads_of_patternOfGroup hgroup hp
        · exact hdone q hq
    · cases h
      exact fun q hq => hdone q (List.mem_reverse.1 hq)
  | cons line rest ih =>
    obtain ⟨hline, hrest⟩ := List.forall_mem_cons.1 hlines
    rw [readLines] at h
    split at h
    · cases hp : patternOfGroup group (some number) with
      | error e =>
        rw [hp] at h
        cases h
      | ok p =>
        rw [hp] at h
        exact ih hrest (List.forall_mem_nil _)
          (List.forall_mem_cons.2 ⟨loads_of_patternOfGroup hgroup hp, hdone⟩) h
    · split at h
      · exact ih hrest (List.forall_mem_cons.2 ⟨hline, hgroup⟩) hdone h
      · exact ih hrest hgroup hdone h

theorem loads_of_ofText {content : String} {c : Catalog} (h : ofText content = .ok c) : ∀ p ∈ c.patterns, Loads p := by
  refine readLines_loads ?_ (List.forall_mem_nil _) (List.forall_mem_nil _) h
  intro line hline
  obtain ⟨raw, -, rfl⟩ := List.mem_map.1 hline
  exact Text.isTrimmed_trim raw

/-! ## §2. Records. -/

/-- The value is a text with nothing but blanks in it. -/
def IsBlankText (d : Datum) : Prop := ∃ blanks, d = .text blanks ∧ ∀ ch ∈ blanks.toList, Text.isBlank ch = true

/-- The name that a record gives, with groups in the place of labels. -/
def nameOf (s : Store) (record : Datum) : Datum := s.expand ((s.look record).field "name")

/-- The pattern comes of the record: values make it, and its name is empty exactly if the record has blanks for it. -/
structure ComesOf (s : Store) (record : Datum) (p : Pattern) : Prop where
  built : p.Built
  empty_iff : p.name = "" ↔ IsBlankText (nameOf s record)

/-- Only blanks leave nothing when they are written and trimmed. -/
theorem trim_display_eq_empty_iff (d : Datum) : Text.trim d.display = "" ↔ IsBlankText d := by
  constructor
  · intro h
    by_cases htext : ∃ t, d = .text t
    · obtain ⟨t, rfl⟩ := htext
      exact ⟨t, rfl, (Text.trim_eq_empty_iff t).1 h⟩
    · exact absurd h ((Text.trim_ne_empty_iff _).2 (Datum.visible_display (not_exists.1 htext)))
  · rintro ⟨t, rfl, hblank⟩
    exact (Text.trim_eq_empty_iff t).2 hblank

theorem exists_splitNames_of_isNameList {d : Datum} (h : isNameList d = true) : ∃ names, splitNames? d = some names := by
  unfold isNameList at h
  split at h
  · exact ⟨_, rfl⟩
  · exact ⟨_, rfl⟩
  · exact ⟨_, rfl⟩
  · cases h

theorem comesOf_of_patternOfRecord {s : Store} {position : Nat} {record : Datum} {p : Pattern}
    (h : patternOfRecord s position record = .ok p) : ComesOf s record p := by
  unfold patternOfRecord at h
  simp only at h
  split at h
  · split at h
    · cases h
    · rename_i hlists
      have hnames : ∀ field ∈ nameListFields, splitNames? (s.look ((s.look record).field field))
          = some (fieldNames s (s.look record) field) := by
        intro field hfield
        have hlist := List.find?_eq_none.1 hlists field hfield
        obtain ⟨names, hsplit⟩ := exists_splitNames_of_isNameList (by simpa using hlist)
        unfold fieldNames
        rw [hsplit]
        rfl
      split at h
      · rename_i name hname
        cases h
        constructor
        · exact ⟨.text name, _, _, _, Pattern.ofValues_eq_ok_iff.2 ⟨name, _, _, _, rfl, hnames "entry_points" (by decide),
            hnames "sanitizers" (by decide), hnames "sinks" (by decide), rfl⟩⟩
        · have hshown : name = (nameOf s record).display := by
            obtain ⟨-, hsome⟩ := Option.ite_none_right_eq_some.1 hname
            exact (Option.some.inj hsome).symm
          rw [← trim_display_eq_empty_iff, ← hshown]
          rfl
      · cases h
  · cases h

theorem comesOf_of_patternsOfRecords {s : Store} {position : Nat} {records : List Datum} {patterns : List Pattern}
    (h : patternsOfRecords s position records = .ok patterns) : List.Forall₂ (ComesOf s) records patterns := by
  induction records generalizing position patterns with
  | nil =>
    cases h
    exact .nil
  | cons record rest ih =>
    rw [patternsOfRecords] at h
    cases hp : patternOfRecord s position record with
    | error e =>
      rw [hp] at h
      cases h
    | ok p =>
      cases hps : patternsOfRecords s (position + 1) rest with
      | error e =>
        rw [hp, hps] at h
        cases h
      | ok ps =>
        rw [hp, hps] at h
        cases h
        exact .cons (comesOf_of_patternOfRecord hp) (ih hps)

/-- Where there is nothing under any label, the fields of a record are its own. -/
theorem field_look_empty (record : Datum) (key : String) : (({} : Store).look record).field key = record.field key := by
  cases record <;> rfl

theorem isBlankText_nameOf_iff (record : Datum) :
    IsBlankText (nameOf {} record) ↔ IsBlankText (record.field "name") := by
  unfold nameOf
  rw [field_look_empty]
  cases record.field "name" with
  | scalar x => rfl
  | _ =>
    constructor
    · rintro ⟨t, ht, -⟩
      cases ht
    · rintro ⟨t, ht, -⟩
      cases ht

/-- A catalog that is made of records has a pattern for each of them. -/
theorem comesOf_of_return {s : Store} {records : List Datum} {c : Catalog}
    (h : (do return ⟨← patternsOfRecords s 1 records⟩ : Except CatalogError Catalog) = .ok c) :
    List.Forall₂ (ComesOf s) records c.patterns := by
  cases hps : patternsOfRecords s 1 records with
  | error e =>
    rw [hps] at h
    cases h
  | ok ps =>
    rw [hps] at h
    cases h
    exact comesOf_of_patternsOfRecords hps

theorem comesOf_of_ofRecords {records : Datum} {c : Catalog} (h : ofRecords records = .ok c) :
    ∃ items, (records = .list items ∨ records = .tuple items) ∧ List.Forall₂ (ComesOf {}) items c.patterns := by
  unfold ofRecords at h
  split at h
  · exact ⟨_, .inl rfl, comesOf_of_return h⟩
  · exact ⟨_, .inr rfl, comesOf_of_return h⟩
  · cases h

/-! ## §3. Documents. -/

/-- The records of a document: those under its key for patterns, or none if it has nothing in it. -/
inductive HasRecords (d : Document) : List Datum → Prop where
  | nothing (hroot : (d.store.look d.root).truth = false) : HasRecords d []
  | listed {items : List Datum} (hitems : d.store.look ((d.store.look d.root).field "patterns") = .list items) :
      HasRecords d items

theorem comesOf_of_ofYaml {content : String} {c : Catalog} (h : ofYaml content = .ok c) :
    ∃ d items, Yaml.read content = .ok d ∧ HasRecords d items ∧ List.Forall₂ (ComesOf d.store) items c.patterns := by
  unfold ofYaml at h
  split at h
  · rename_i d hd
    refine ⟨d, ?_⟩
    unfold ofDocument at h
    simp only at h
    split at h
    · split at h
      · rename_i items hitems
        exact ⟨items, hd, .listed hitems, comesOf_of_return h⟩
      · cases h
    · rename_i hroot
      cases h
      exact ⟨[], hd, .nothing (Bool.eq_false_iff.2 hroot), .nil⟩
  · cases h
  · cases h

/-! ## §4. Loaded catalogs. -/

theorem built_of_comesOf {s : Store} {records : List Datum} {patterns : List Pattern}
    (h : List.Forall₂ (ComesOf s) records patterns) : ∀ p ∈ patterns, p.Built := by
  induction h with
  | nil => exact List.forall_mem_nil _
  | cons hfirst _ ih => exact List.forall_mem_cons.2 ⟨hfirst.built, ih⟩

/-- A pattern has a proper name unless its record has blanks for it. -/
theorem ComesOf.isName_iff {s : Store} {record : Datum} {p : Pattern} (h : ComesOf s record p) :
    IsName p.name ↔ ¬ IsBlankText (nameOf s record) := by
  rw [← h.empty_iff]
  exact ⟨fun hname => hname.ne_empty, fun hne => ⟨hne, h.built.isTrimmed_name⟩⟩

/-- **What is in a catalog that was loaded.**  The lists of its patterns have names only, and no name of a pattern has
blanks around it.  A pattern from a text has a name; one from a record, be it in a list or in a document, has one
exactly if the record has no text of blanks in the place of the name. -/
theorem loaded_catalogs_are_trimmed (content : String) (records : Datum) (c : Catalog) :
    (ofText content = .ok c → ∀ p ∈ c.patterns, IsName p.name ∧ p.ListsNames) ∧
    (ofRecords records = .ok c →
      (∀ p ∈ c.patterns, IsTrimmed p.name ∧ p.ListsNames) ∧
      ∃ items, (records = .list items ∨ records = .tuple items) ∧
        List.Forall₂ (fun record p => IsName p.name ↔ ¬ IsBlankText (record.field "name")) items c.patterns) ∧
    (ofYaml content = .ok c →
      (∀ p ∈ c.patterns, IsTrimmed p.name ∧ p.ListsNames) ∧
      ∃ d items, Yaml.read content = .ok d ∧ HasRecords d items ∧
        List.Forall₂ (fun record p => IsName p.name ↔ ¬ IsBlankText (nameOf d.store record)) items c.patterns) := by
  have htrimmed : ∀ p : Pattern, p.Built → IsTrimmed p.name ∧ p.ListsNames :=
    fun p hp => ⟨hp.isTrimmed_name, hp.listsNames⟩
  refine ⟨?_, ?_, ?_⟩
  · intro hc p hp
    have hloads := loads_of_ofText hc p hp
    exact ⟨⟨hloads.named, hloads.built.isTrimmed_name⟩, hloads.built.listsNames⟩
  · intro hc
    obtain ⟨items, hitems, hcomes⟩ := comesOf_of_ofRecords hc
    refine ⟨fun p hp => htrimmed p (built_of_comesOf hcomes p hp), items, hitems, hcomes.imp ?_⟩
    intro record p hp
    rw [hp.isName_iff, isBlankText_nameOf_iff]
  · intro hc
    obtain ⟨d, items, hd, hitems, hcomes⟩ := comesOf_of_ofYaml hc
    refine ⟨fun p hp => htrimmed p (built_of_comesOf hcomes p hp), d, items, hd, hitems, hcomes.imp ?_⟩
    intro record p hp
    exact hp.isName_iff

/-- Blanks around a name and in the place of a sink, and a truth value in the place of a name. -/
def paddedRecords : List Datum :=
  [.object [("name", .text " SQL "), ("sinks", .list [.text "query ", .text " "])], .object [("name", .bool true)]]

def paddedCatalog : Catalog := ⟨[⟨"SQL", ∅, ∅, .ofList ["query"]⟩, ⟨"True", ∅, ∅, ∅⟩]⟩

theorem paddedRecords_load_names :
    ofRecords (.list paddedRecords) = .ok paddedCatalog ∧ ∀ p ∈ paddedCatalog.patterns, IsName p.name ∧ p.ListsNames := by
  have hload : ofRecords (.list paddedRecords) = .ok paddedCatalog := rfl
  refine ⟨hload, ?_⟩
  obtain ⟨-, hrecords, -⟩ := loaded_catalogs_are_trimmed "" (.list paddedRecords) paddedCatalog
  obtain ⟨htrimmed, items, hitems, hnames⟩ := hrecords hload
  rcases hitems with hitems | hitems
  · cases hitems
    obtain _ | ⟨hpadded, _ | ⟨htruth, _⟩⟩ := hnames
    intro p hp
    refine ⟨?_, (htrimmed p hp).2⟩
    rcases List.mem_cons.1 hp with rfl | hp
    · refine hpadded.2 ?_
      rintro ⟨t, ht, hblank⟩
      cases ht
      exact absurd (hblank 'S' (by decide)) (by decide)
    · rw [List.mem_singleton.1 hp]
      refine htruth.2 ?_
      rintro ⟨t, ht, -⟩
      cases ht
  · cases hitems

/-- A record with a blank for its name, which counts as a name until it is trimmed. -/
def blankRecord : Datum := .object [("name", .text " "), ("sinks", .text "query")]

/-- **A record with a blank for its name makes a pattern without a name.** -/
theorem blank_name_loads_empty :
    ofRecords (.list [blankRecord]) = .ok ⟨[⟨"", ∅, ∅, .ofList ["query"]⟩]⟩ ∧ ¬ IsName "" := by
  refine ⟨rfl, ?_⟩
  intro h
  exact h.ne_empty rfl

end TaintFlow.Catalog
