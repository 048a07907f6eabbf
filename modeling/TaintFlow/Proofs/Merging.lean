/-
  TaintFlow.Proofs.Merging
  ────────────────────────
  **What a configuration holds after settings were laid over it.**

  Merging goes through the given entries one by one and descends where both sides have a mapping.
  What comes of it can be said of each path of keys on its own:

    • `Datum.follow?` — the value that a path of keys leads to,
    • `Datum.distinctKeys` — no mapping gives a key twice,
    • `overlay` — one value laid over what was there,
    • `get?_mergeEntries` — merging lays each given value over the one under its key,
    • `follow?_overlay` — where the given value holds something, that is laid over what was there,
    • `follow?_overlay_of_missing`, `follow?_overlay_of_replaced` — where it ends in a mapping without
      the key, what was there is kept, unless that mapping has taken its place,
    • `mergeEntries_mergeEntries` — merging the same settings again changes nothing,
    • `merge_standard_resolves_paths` — the whole of it, for settings laid over the standard ones.
-/
import Mathlib.Data.List.Infix
import TaintFlow.Config

namespace TaintFlow

/-! ## §1. Pairs. -/

namespace Assoc

variable {κ ν : Type} [DecidableEq κ]

/-- To set a key to the value that it has changes nothing. -/
theorem put_of_get? {key : κ} {value : ν} {l : List (κ × ν)} (h : get? key l = some value) : put key value l = l := by
  induction l with
  | nil => cases h
  | cons e rest ih =>
    rw [get?] at h
    rw [put]
    split at h
    · cases h
      rw [if_pos ‹_›]
    · rw [if_neg ‹_›, ih h]

end Assoc

/-! ## §2. Paths of keys. -/

namespace Datum

/-- The value that a path of keys leads to. -/
def follow? : List String → Datum → Option Datum
  | [], d => some d
  | key :: rest, d => (d.get? key).bind (follow? rest)

@[simp] theorem follow?_nil (d : Datum) : d.follow? [] = some d := rfl

theorem follow?_cons (key : String) (rest : List String) (d : Datum) :
    d.follow? (key :: rest) = (d.get? key).bind (follow? rest) := rfl

theorem follow?_append (path further : List String) (d : Datum) :
    d.follow? (path ++ further) = (d.follow? path).bind (follow? further) := by
  induction path generalizing d with
  | nil => rfl
  | cons key rest ih =>
    rw [List.cons_append, follow?_cons, follow?_cons, Option.bind_assoc]
    exact congrArg _ (funext ih)

/-- No path leads into a value that is no mapping. -/
theorem follow?_of_not_isMap {d : Datum} (h : d.isMap = false) {path : List String} (hpath : path ≠ []) :
    d.follow? path = none := by
  obtain ⟨key, rest, rfl⟩ := List.exists_cons_of_ne_nil hpath
  rw [follow?_cons]
  cases d with
  | map entries => cases h
  | _ => rfl

theorem exists_map_of_isMap {d : Datum} (h : d.isMap = true) : ∃ entries, d = .map entries := by
  cases d with
  | map entries => exact ⟨entries, rfl⟩
  | _ => cases h

theorem exists_map_of_get? {d value : Datum} {key : String} (h : d.get? key = some value) :
    ∃ entries, d = .map entries ∧ Assoc.get? (.text key) entries = some value := by
  cases d with
  | map entries => exact ⟨entries, rfl, h⟩
  | _ => cases h

/-- A path to a mapping leads through mappings. -/
theorem exists_map_of_prefix {d : Datum} {path before : List String} {entries : Entries}
    (h : d.follow? path = some (.map entries)) (hbefore : before <+: path) :
    ∃ around, d.follow? before = some (.map around) := by
  obtain ⟨further, rfl⟩ := hbefore
  rw [follow?_append] at h
  obtain ⟨x, hx, hfurther⟩ := Option.bind_eq_some_iff.1 h
  cases further with
  | nil =>
    cases hfurther
    exact ⟨entries, hx⟩
  | cons key rest =>
    obtain ⟨value, hvalue, -⟩ := Option.bind_eq_some_iff.1 hfurther
    obtain ⟨around, rfl, -⟩ := exists_map_of_get? hvalue
    exact ⟨around, hx⟩

mutual

/-- Does no mapping in the value give a key twice? -/
def distinctKeys : Datum → Bool
  | .list items | .tuple items => allDistinctKeys items
  | .map entries => decide (Assoc.keys entries).Nodup && entriesDistinctKeys entries
  | .scalar _ | .set _ | .shared .. => true

/-- Does no mapping in the values give a key twice? -/
def allDistinctKeys : List Datum → Bool
  | [] => true
  | d :: ds => distinctKeys d && allDistinctKeys ds

/-- Does no mapping in the values of the entries give a key twice? -/
def entriesDistinctKeys : List (Scalar × Datum) → Bool
  | [] => true
  | (_, d) :: rest => distinctKeys d && entriesDistinctKeys rest

end

theorem nodup_keys {entries : Entries} (h : (Datum.map entries).distinctKeys = true) : (Assoc.keys entries).Nodup := by
  rw [distinctKeys, Bool.and_eq_true] at h
  exact of_decide_eq_true h.1

theorem distinctKeys_of_mem {entries : Entries} (h : (Datum.map entries).distinctKeys = true) {e : Scalar × Datum}
    (he : e ∈ entries) : e.2.distinctKeys = true := by
  rw [distinctKeys, Bool.and_eq_true] at h
  replace h := h.2
  induction entries with
  | nil => cases he
  | cons first rest ih =>
    rw [entriesDistinctKeys, Bool.and_eq_true] at h
    rcases List.mem_cons.1 he with rfl | he
    · exact h.1
    · exact ih he h.2

theorem distinctKeys_of_get? {entries : Entries} (h : (Datum.map entries).distinctKeys = true) {key : Scalar}
    {d : Datum} (hd : Assoc.get? key entries = some d) : d.distinctKeys = true :=
  distinctKeys_of_mem h (Assoc.mem_of_get? hd)

theorem distinctKeys_of_follow? {path : List String} {d inside : Datum} (h : d.distinctKeys = true)
    (hpath : d.follow? path = some inside) : inside.distinctKeys = true := by
  induction path generalizing d with
  | nil =>
    cases hpath
    exact h
  | cons key rest ih =>
    obtain ⟨value, hvalue, hrest⟩ := Option.bind_eq_some_iff.1 hpath
    obtain ⟨entries, rfl, hget⟩ := exists_map_of_get? hvalue
    exact ih (distinctKeys_of_get? h hget) hrest

/-- Entries are proved about by way of the mappings among their values. -/
theorem entries_induction {P : Entries → Prop}
    (h : ∀ entries, (∀ key inner, (key, Datum.map inner) ∈ entries → P inner) → P entries) (entries : Entries) :
    P entries := by
  refine h entries fun key inner hmem => ?_
  have hsize : sizeOf inner < sizeOf entries := by
    have hentry := List.sizeOf_lt_of_mem hmem
    rw [Prod.mk.sizeOf_spec, Datum.map.sizeOf_spec] at hentry
    omega
  exact entries_induction h inner
termination_by sizeOf entries

end Datum

/-! ## §3. Merging key by key. -/

namespace Config

/-- A given value laid over what was there. -/
def overlay (old : Option Datum) (given : Datum) : Datum :=
  match old, given with
  | some (.map old), .map inner => .map (mergeEntries old inner)
  | _, given => given

theorem overlay_map (old inner : Entries) : overlay (some (.map old)) (.map inner) = .map (mergeEntries old inner) := rfl

/-- Only mappings are merged: any other value takes the place of what was there. -/
theorem overlay_of_not_isMap (old : Option Datum) {given : Datum} (h : given.isMap = false) :
    overlay old given = given := by
  cases given with
  | map inner => cases h
  | _ => rcases old with _ | _ | _ | _ | _ | _ | _ <;> rfl

/-- What is no mapping gives way to any value. -/
theorem overlay_of_old {old : Option Datum} (h : ∀ entries, old ≠ some (.map entries)) (given : Datum) :
    overlay old given = given := by
  unfold overlay
  split
  · exact absurd rfl (h _)
  · rfl

theorem mergeEntries_nil (base : Entries) : mergeEntries base [] = base := by
  unfold mergeEntries
  rfl

/-- One step of merging. -/
theorem mergeEntries_cons (base : Entries) (key : Scalar) (value : Datum) (rest : Entries) :
    mergeEntries base ((key, value) :: rest)
      = mergeEntries (Assoc.put key (overlay (Assoc.get? key base) value) base) rest := by
  cases value with
  | map inner =>
    rw [mergeEntries]
    split
    · rename_i old hold
      rw [hold, overlay_map]
    · rename_i hold
      rw [overlay_of_old hold]
  | _ =>
    rw [overlay_of_not_isMap _ rfl, mergeEntries]
    intro inner h
    cases h

/-- **Merging lays each given value over the one under its key**, and leaves the other keys alone. -/
theorem get?_mergeEntries (base : Entries) {given : Entries} (hkeys : (Assoc.keys given).Nodup) (key : Scalar) :
    Assoc.get? key (mergeEntries base given)
      = (Assoc.get? key given).elim (Assoc.get? key base) fun value => some (overlay (Assoc.get? key base) value) := by
  induction given generalizing base with
  | nil => rw [mergeEntries_nil]; rfl
  | cons e rest ih =>
    obtain ⟨k, value⟩ := e
    obtain ⟨hk, hrest⟩ := List.nodup_cons.1 (show (k :: Assoc.keys rest).Nodup from hkeys)
    rw [mergeEntries_cons, ih _ hrest, Assoc.get?]
    by_cases hkey : k = key
    · subst hkey
      rw [if_pos rfl, Assoc.get?_eq_none_iff.2 hk]
      exact Assoc.get?_put_self _ _ _
    · rw [if_neg hkey, Assoc.get?_put_of_ne (Ne.symm hkey)]

/-! ## §4. Merging along a path. -/

/-- **Where a given value holds something, that is laid over what was there.** -/
theorem follow?_overlay {path : List String} (old : Option Datum) {given d : Datum} (hkeys : given.distinctKeys = true)
    (h : given.follow? path = some d) : (overlay old given).follow? path = some (overlay (old.bind (Datum.follow? path)) d) := by
  induction path generalizing old given with
  | nil =>
    cases h
    cases old <;> rfl
  | cons key rest ih =>
    obtain ⟨value, hvalue, hrest⟩ := Option.bind_eq_some_iff.1 h
    obtain ⟨inner, rfl, hinner⟩ := Datum.exists_map_of_get? hvalue
    by_cases hold : ∃ entries, old = some (.map entries)
    · obtain ⟨entries, rfl⟩ := hold
      have hmerged : Assoc.get? (.text key) (mergeEntries entries inner)
          = some (overlay (Assoc.get? (.text key) entries) value) := by
        rw [get?_mergeEntries entries (Datum.nodup_keys hkeys), hinner]
        rfl
      show (Assoc.get? (.text key) (mergeEntries entries inner)).bind (Datum.follow? rest) = _
      rw [hmerged, Option.bind_some]
      exact ih _ (Datum.distinctKeys_of_get? hkeys hinner) hrest
    · -- nothing is inside of what was there, so the given value stands as it is
      have hnone : old.bind (Datum.follow? (key :: rest)) = none := by
        cases old with
        | none => rfl
        | some x =>
          refine Datum.follow?_of_not_isMap (Bool.eq_false_iff.2 fun hmap => hold ?_) (List.cons_ne_nil key rest)
          obtain ⟨entries, rfl⟩ := Datum.exists_map_of_isMap hmap
          exact ⟨entries, rfl⟩
      rw [overlay_of_old (not_exists.1 hold), hnone, h]
      rfl

/-- **Where a given value ends in a mapping without the key, what was there is kept.** -/
theorem follow?_overlay_of_missing {path : List String} {key : String} (rest : List String) {old given : Datum}
    {inner : Entries} (hkeys : given.distinctKeys = true) (h : given.follow? path = some (.map inner))
    (hmissing : Assoc.get? (.text key) inner = none) {around : Entries} (hold : old.follow? path = some (.map around)) :
    (overlay (some old) given).follow? (path ++ key :: rest) = old.follow? (path ++ key :: rest) := by
  have hkept : Assoc.get? (.text key) (mergeEntries around inner) = Assoc.get? (.text key) around := by
    rw [get?_mergeEntries around (Datum.nodup_keys (Datum.distinctKeys_of_follow? hkeys h)), hmissing]
    rfl
  rw [Datum.follow?_append, Datum.follow?_append, follow?_overlay _ hkeys h, Option.bind_some, Option.bind_some, hold,
    overlay_map, Option.bind_some]
  show (Assoc.get? (.text key) (mergeEntries around inner)).bind _ = (Assoc.get? (.text key) around).bind _
  rw [hkept]

/-- A mapping that has taken the place of something else has no other keys than its own. -/
theorem follow?_overlay_of_replaced {path : List String} {key : String} (rest : List String) {old given : Datum}
    {inner : Entries} (hkeys : given.distinctKeys = true) (h : given.follow? path = some (.map inner))
    (hmissing : Assoc.get? (.text key) inner = none) (hold : ∀ around, old.follow? path ≠ some (.map around)) :
    (overlay (some old) given).follow? (path ++ key :: rest) = none := by
  rw [Datum.follow?_append, follow?_overlay _ hkeys h, Option.bind_some, Option.bind_some, overlay_of_old hold]
  show (Assoc.get? (.text key) inner).bind _ = none
  rw [hmissing]
  rfl

/-! ## §5. Merging again. -/

/-- Settings that are all there already change nothing. -/
theorem mergeEntries_of_absorbed {base given : Entries}
    (h : ∀ e ∈ given, ∃ held, Assoc.get? e.1 base = some held ∧ overlay (some held) e.2 = held) :
    mergeEntries base given = base := by
  induction given with
  | nil => exact mergeEntries_nil base
  | cons e rest ih =>
    obtain ⟨held, hheld, habsorbed⟩ := h e List.mem_cons_self
    obtain ⟨key, value⟩ := e
    rw [mergeEntries_cons, hheld, habsorbed, Assoc.put_of_get? hheld]
    exact ih fun e he => h e (List.mem_cons_of_mem _ he)

theorem mergeEntries_self (entries : Entries) (hkeys : (Datum.map entries).distinctKeys = true) :
    mergeEntries entries entries = entries := by
  induction entries using Datum.entries_induction with
  | h entries ih =>
    apply mergeEntries_of_absorbed
    intro e he
    refine ⟨e.2, Assoc.get?_of_mem (Datum.nodup_keys hkeys) he, ?_⟩
    obtain ⟨key, value⟩ := e
    cases value with
    | map inner =>
      show Datum.map (mergeEntries inner inner) = .map inner
      rw [ih key inner he (Datum.distinctKeys_of_mem hkeys he)]
    | _ => exact overlay_of_not_isMap _ rfl

/-- **Merging the same settings again changes nothing.** -/
theorem mergeEntries_mergeEntries (base given : Entries) (hkeys : (Datum.map given).distinctKeys = true) :
    mergeEntries (mergeEntries base given) given = mergeEntries base given := by
  induction given using Datum.entries_induction generalizing base with
  | h given ih =>
    apply mergeEntries_of_absorbed
    intro e he
    refine ⟨overlay (Assoc.get? e.1 base) e.2, ?_, ?_⟩
    · rw [get?_mergeEntries base (Datum.nodup_keys hkeys), Assoc.get?_of_mem (Datum.nodup_keys hkeys) he]
      rfl
    obtain ⟨key, value⟩ := e
    cases value with
    | map inner =>
      have hinner := Datum.distinctKeys_of_mem hkeys he
      by_cases hold : ∃ old, Assoc.get? key base = some (.map old)
      · obtain ⟨old, hold⟩ := hold
        show overlay (some (overlay (Assoc.get? key base) (.map inner))) (.map inner) = _
        rw [hold, overlay_map, overlay_map, ih key inner he old hinner]
      · -- the given mapping stands as it is, so it is merged into itself
        rw [overlay_of_old (not_exists.1 hold), overlay_map, mergeEntries_self inner hinner]
    | _ => rw [overlay_of_not_isMap _ rfl, overlay_of_not_isMap _ rfl]

/-! ## §6. The standard configuration. -/

/-- What the configuration holds at the end of a path. -/
def holds? (c : Config) (path : List String) : Option Datum := (Datum.map c.entries).follow? path

/-- The configuration holds mappings all along a path. -/
def LeadsAlong (c : Config) (path : List String) : Prop :=
  ∀ before, before <+: path → ∃ around, c.holds? before = some (.map around)

theorem holds?_merge (c : Config) (given : Entries) (path : List String) :
    (c.merge given).holds? path = (overlay (some (.map c.entries)) (.map given)).follow? path := rfl

/-- **What the standard configuration holds after settings were laid over it.**  What they hold is there, and where
that has no inside there is nothing further.  Where they have a mapping without the next key, the standard settings
stay if these have mappings so far, and nothing is there if they have not.  The same settings laid over it again
change nothing. -/
theorem merge_standard_resolves_paths (catalogPath : String) (given : Entries)
    (hkeys : (Datum.map given).distinctKeys = true) :
    (∀ path d, (Datum.map given).follow? path = some d → d.isMap = false →
      ((standard catalogPath).merge given).holds? path = some d) ∧
    (∀ path before d, before <+: path → before ≠ path → (Datum.map given).follow? before = some d → d.isMap = false →
      ((standard catalogPath).merge given).holds? path = none) ∧
    (∀ walked key rest inner, (Datum.map given).follow? walked = some (.map inner) →
      Assoc.get? (.text key) inner = none →
      ((standard catalogPath).LeadsAlong walked → ((standard catalogPath).merge given).holds? (walked ++ key :: rest)
        = (standard catalogPath).holds? (walked ++ key :: rest)) ∧
      (¬ (standard catalogPath).LeadsAlong walked →
        ((standard catalogPath).merge given).holds? (walked ++ key :: rest) = none)) ∧
    ((standard catalogPath).merge given).merge given = (standard catalogPath).merge given := by
  have hheld : ∀ path d, (Datum.map given).follow? path = some d → d.isMap = false →
      ((standard catalogPath).merge given).holds? path = some d := by
    intro path d hd hmap
    rw [holds?_merge, follow?_overlay _ hkeys hd, overlay_of_not_isMap _ hmap]
  refine ⟨hheld, ?_, ?_, ?_⟩
  · intro path before d hbefore hne hd hmap
    obtain ⟨further, rfl⟩ := hbefore
    have hfurther : further ≠ [] := by
      rintro rfl
      exact hne (List.append_nil before).symm
    show Datum.follow? (before ++ further) _ = none
    rw [Datum.follow?_append, show Datum.follow? before _ = some d from hheld before d hd hmap]
    exact Datum.follow?_of_not_isMap hmap hfurther
  · intro walked key rest inner hinner hmissing
    rw [holds?_merge]
    constructor
    · intro hleads
      obtain ⟨around, haround⟩ := hleads walked (List.prefix_refl walked)
      exact follow?_overlay_of_missing rest hkeys hinner hmissing haround
    · intro hleads
      refine follow?_overlay_of_replaced rest hkeys hinner hmissing ?_
      intro around haround
      exact hleads fun before hbefore => Datum.exists_map_of_prefix haround hbefore
  · have hagain := mergeEntries_mergeEntries (standard catalogPath).entries given hkeys
    unfold merge
    rw [hagain]

/-- A text in the place of a text, a text in the place of a mapping, and a mapping in the place of a text. -/
def mixedOverrides : Entries :=
  [(.text "analysis", .object [("block_strategy", .text "all"), ("echo_sink", .null)]), (.text "report", .text "none"),
   (.text "system", .object [("name", .object [("short", .text "SA")])])]

theorem mixedOverrides_resolved :
    (Datum.map mixedOverrides).distinctKeys = true ∧
    ((standard "patterns.txt").merge mixedOverrides).holds? ["analysis", "block_strategy"] = some (.text "all") ∧
    ((standard "patterns.txt").merge mixedOverrides).holds? ["report", "format"] = none ∧
    ((standard "patterns.txt").merge mixedOverrides).holds? ["analysis", "entry_point_prefix"] = some (.text "$") ∧
    ((standard "patterns.txt").merge mixedOverrides).holds? ["system", "name", "long"] = none ∧
    ((standard "patterns.txt").merge mixedOverrides).merge mixedOverrides
      = (standard "patterns.txt").merge mixedOverrides := by
  have hkeys : (Datum.map mixedOverrides).distinctKeys = true := by decide
  obtain ⟨hheld, hended, hmissing, hagain⟩ := merge_standard_resolves_paths "patterns.txt" mixedOverrides hkeys
  refine ⟨hkeys, hheld _ _ rfl rfl, hended _ ["report"] _ ⟨["format"], rfl⟩ (by decide) rfl rfl, ?_, ?_, hagain⟩
  · refine ((hmissing ["analysis"] "entry_point_prefix" [] _ rfl (by decide)).1 ?_).trans rfl
    intro before hbefore
    exact Datum.exists_map_of_prefix rfl hbefore
  · refine (hmissing ["system", "name"] "long" [] _ rfl (by decide)).2 ?_
    intro hleads
    obtain ⟨around, haround⟩ := hleads ["system", "name"] (List.prefix_refl _)
    cases haround

end Config

end TaintFlow
