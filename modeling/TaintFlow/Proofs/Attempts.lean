/-
  TaintFlow.Proofs.Attempts
  ─────────────────────────
  **What an attempt to change a setting leaves behind.**

  The walk to a setting makes the mappings that are missing on its way, so an attempt that fails
  might leave some of them.  It does not: a walk fails only at a value that was there, and in front
  of such a value nothing is missing.  This is so whatever is shared.  What is asked for afterwards
  is another matter: a mapping that is held in two places changes in both.

    • `Store.follow?` — the value that a path of keys leads to, through labels,
    • `BlockedOn` — a path leads through a value that is no mapping,
    • `Apart` — neither of two paths leads through the end of the other,
    • `Walked`, `walked_setPath` — a walk is blocked and changes nothing, or comes to a label and changes
      nothing, or it sets the value and changes nothing apart from it,
    • `setShared_cases`, `attempt_cases` — an attempt is blocked and changes nothing, or it is done,
    • `Datum.unshared`, `unshared_after` — values that share nothing, and that configurations stay so,
    • `getD_eq` — a setting is what its path leads to, unless that is null,
    • `attempt_is_atomic_and_lawful` — the laws of setting and getting, after any settings before,
    • `shared_mappings_break_the_laws` — what becomes of them where a mapping is held in two places.
-/
import TaintFlow.Proofs.Merging

namespace TaintFlow

/-! ## §1. Values that share nothing. -/

namespace Datum

mutual

/-- Is nothing in the value held anywhere else?  A mapping that is written out has one place, and one that is held in
several has a label in each of them. -/
def unshared : Datum → Bool
  | .scalar _ | .set _ => true
  | .list items | .tuple items => allUnshared items
  | .map entries => entriesUnshared entries
  | .shared .. => false

/-- Is nothing in the values held anywhere else? -/
def allUnshared : List Datum → Bool
  | [] => true
  | d :: ds => unshared d && allUnshared ds

/-- Is nothing in the entries held anywhere else? -/
def entriesUnshared : List (Scalar × Datum) → Bool
  | [] => true
  | (_, d) :: rest => unshared d && entriesUnshared rest

end

theorem unshared_map_iff {entries : Entries} :
    (Datum.map entries).unshared = true ↔ ∀ e ∈ entries, e.2.unshared = true := by
  rw [unshared]
  induction entries with
  | nil => exact ⟨fun _ => List.forall_mem_nil _, fun _ => rfl⟩
  | cons e rest ih =>
    obtain ⟨key, value⟩ := e
    rw [entriesUnshared, Bool.and_eq_true, List.forall_mem_cons, ih]

theorem unshared_of_get? {entries : Entries} (h : (Datum.map entries).unshared = true) {key : Scalar} {d : Datum}
    (hd : Assoc.get? key entries = some d) : d.unshared = true :=
  unshared_map_iff.1 h _ (Assoc.mem_of_get? hd)

theorem unshared_put {entries : Entries} (h : (Datum.map entries).unshared = true) (key : Scalar) {value : Datum}
    (hvalue : value.unshared = true) : (Datum.map (Assoc.put key value entries)).unshared = true := by
  rw [unshared_map_iff]
  intro e he
  rcases Assoc.eq_or_mem_of_mem_put he with rfl | hold
  · exact hvalue
  · exact unshared_map_iff.1 h e hold

end Datum

/-! ## §2. Paths through labels. -/

namespace Store

variable (s : Store)

/-- The value that a path of keys leads to, through labels. -/
def follow? : List String → Datum → Option Datum
  | [], d => some d
  | key :: rest, d => ((s.look d).get? key).bind (follow? rest)

/-- There is no label to be looked up in a value that shares nothing. -/
theorem look_of_unshared {d : Datum} (h : d.unshared = true) : s.look d = d := by
  cases d with
  | shared kind label => cases h
  | _ => rfl

/-- To put a group where it is changes nothing. -/
theorem put_group (label : Nat) : s.put label (s.group label) = s := by
  unfold put group
  by_cases h : label < s.groups.size
  · simp [Array.setIfInBounds, h]
  · simp [Array.setIfInBounds, h]

end Store

namespace Config

/-! ## §3. Walks. -/

/-- The path leads through a value that is no mapping. -/
def BlockedOn (s : Store) (path : List String) (d : Datum) : Prop :=
  ∃ before inside, before <+: path ∧ before ≠ path ∧ s.follow? before d = some inside ∧ (s.look inside).isMap = false

/-- Neither of the paths leads through the end of the other. -/
def Apart (path other : List String) : Prop := ¬ other <+: path ∧ ¬ path <+: other

section Blocked

variable {s : Store} {key : String} {rest path : List String} {d : Datum} {entries : Entries}

theorem not_blockedOn_nil (d : Datum) : ¬ BlockedOn s [] d := by
  rintro ⟨before, inside, hbefore, hne, -⟩
  exact hne (List.prefix_nil.1 hbefore)

theorem blockedOn_of_not_isMap (h : (s.look d).isMap = false) (hpath : path ≠ []) : BlockedOn s path d :=
  ⟨[], d, List.nil_prefix, Ne.symm hpath, rfl, h⟩

/-- A mapping does not block a path, but what it has under the next key may. -/
theorem blockedOn_cons_iff (hd : s.look d = .map entries) :
    BlockedOn s (key :: rest) d ↔ ∃ value, Assoc.get? (.text key) entries = some value ∧ BlockedOn s rest value := by
  constructor
  · rintro ⟨before, inside, hbefore, hne, hinside, hmap⟩
    cases before with
    | nil =>
      obtain rfl := Option.some.inj hinside
      rw [hd] at hmap
      cases hmap
    | cons k before =>
      obtain ⟨rfl, hrest⟩ := List.cons_prefix_cons.1 hbefore
      rw [Store.follow?, hd] at hinside
      obtain ⟨value, hvalue, hinside⟩ := Option.bind_eq_some_iff.1 hinside
      exact ⟨value, hvalue, before, inside, hrest, fun heq => hne (heq ▸ rfl), hinside, hmap⟩
  · rintro ⟨value, hvalue, before, inside, hbefore, hne, hinside, hmap⟩
    refine ⟨key :: before, inside, List.cons_prefix_cons.2 ⟨rfl, hbefore⟩, fun heq => hne (List.cons.inj heq).2, ?_, hmap⟩
    rw [Store.follow?, hd]
    exact Option.bind_eq_some_iff.2 ⟨value, hvalue, hinside⟩

/-- Whether a mapping is written out or has a label makes no difference. -/
theorem blockedOn_look (hd : s.look d = .map entries) (hpath : path ≠ []) :
    BlockedOn s path d ↔ BlockedOn s path (.map entries) := by
  obtain ⟨key, rest, rfl⟩ := List.exists_cons_of_ne_nil hpath
  rw [blockedOn_cons_iff hd, blockedOn_cons_iff rfl]

/-- There is nothing in the way where nothing is there. -/
theorem not_blockedOn_empty (path : List String) : ¬ BlockedOn s path (.map []) := by
  cases path with
  | nil => exact not_blockedOn_nil _
  | cons key rest =>
    rw [blockedOn_cons_iff rfl]
    rintro ⟨value, hvalue, -⟩
    cases hvalue

end Blocked

theorem apart_cons_iff {key k : String} {rest other : List String} :
    Apart (key :: rest) (k :: other) ↔ k ≠ key ∨ Apart rest other := by
  unfold Apart
  rw [List.cons_prefix_cons, List.cons_prefix_cons]
  by_cases hkey : k = key
  · subst hkey
    simp
  · simp [hkey, Ne.symm hkey]

theorem follow?_put_self (key : String) (value : Datum) (entries : Entries) (rest : List String) :
    (Datum.map (Assoc.put (.text key) value entries)).follow? (key :: rest) = value.follow? rest := by
  show (Assoc.get? (.text key) (Assoc.put (.text key) value entries)).bind _ = _
  rw [Assoc.get?_put_self, Option.bind_some]

theorem follow?_put_of_ne {key k : String} (h : k ≠ key) (value : Datum) (entries : Entries) (rest : List String) :
    (Datum.map (Assoc.put (.text key) value entries)).follow? (k :: rest) = (Datum.map entries).follow? (k :: rest) := by
  show (Assoc.get? (.text k) (Assoc.put (.text key) value entries)).bind _ = (Assoc.get? (.text k) entries).bind _
  rw [Assoc.get?_put_of_ne fun heq => h (Scalar.text.inj heq)]

/-- The walk has set the value at the end of the path, and nothing apart from it has changed. -/
structure Sets (value : Datum) (path : List String) (entries after : Entries) : Prop where
  there : (Datum.map after).follow? path = some value
  apart : ∀ other, Apart path other → (Datum.map after).follow? other = (Datum.map entries).follow? other

/-- A walk inside one of the mappings is a walk from the outer one. -/
theorem Sets.within {value : Datum} {rest : List String} {inner after : Entries} (h : Sets value rest inner after)
    {key : String} {entries : Entries} (hentry : ∀ other, other ≠ [] →
      (Datum.map entries).follow? (key :: other) = (Datum.map inner).follow? other) :
    Sets value (key :: rest) entries (Assoc.put (.text key) (.map after) entries) := by
  constructor
  · rw [follow?_put_self, h.there]
  · intro other hother
    cases other with
    | nil => exact absurd List.nil_prefix hother.1
    | cons k other =>
      by_cases hkey : k = key
      · subst hkey
        have hrest := (apart_cons_iff.1 hother).resolve_left fun hne => hne rfl
        have hne : other ≠ [] := fun heq => hrest.1 (heq ▸ List.nil_prefix)
        rw [follow?_put_self, h.apart other hrest, hentry other hne]
      · exact follow?_put_of_ne hkey _ _ _

/-- **How a walk ends.** -/
inductive Walked (s : Store) (value : Datum) (path : List String) (entries : Entries) : Walk → Prop where
  /-- Something is in the way, and nothing has changed. -/
  | blocked (hblocked : BlockedOn s path (.map entries)) : Walked s value path entries ⟨entries, .blocked⟩
  /-- The walk has come to a label without changing anything, and a shorter way is left. -/
  | below {kind : GroupKind} {label : Nat} {rest : List String} (hrest : rest ≠ []) (hshorter : rest.length < path.length)
    (hshared : (Datum.map entries).unshared = false)
    (hblocked : BlockedOn s path (.map entries) ↔ BlockedOn s rest (.shared kind label)) :
    Walked s value path entries ⟨entries, .below label rest⟩
  /-- The value has been set. -/
  | done {after : Entries} (hfree : ¬ BlockedOn s path (.map entries)) (hsets : Sets value path entries after) :
    Walked s value path entries ⟨after, .done⟩

/-- **A walk is blocked and changes nothing, or comes to a label and changes nothing, or it sets the value** and changes
nothing apart from it. -/
theorem walked_setPath (s : Store) (value : Datum) {path : List String} (hpath : path ≠ []) (entries : Entries) :
    Walked s value path entries (setPath value path entries) := by
  fun_induction setPath value path entries with
  | case1 entries => exact absurd rfl hpath
  | case2 k entries =>
    refine .done ?_ ⟨follow?_put_self k value entries [], fun other hother => ?_⟩
    · rw [blockedOn_cons_iff rfl]
      rintro ⟨x, -, hx⟩
      exact not_blockedOn_nil x hx
    · cases other with
      | nil => exact absurd List.nil_prefix hother.1
      | cons j other =>
        refine follow?_put_of_ne ((apart_cons_iff.1 hother).resolve_right ?_) _ _ _
        exact fun hrest => hrest.2 List.nil_prefix
  | case3 k rest entries hrest hmissing ih =>
    -- from here on the walk goes through mappings of its own making
    have hempty : Walked s value rest [] (setPath value rest []) := ih hrest
    generalize setPath value rest [] = walk at hempty
    cases hempty with
    | blocked hblocked => exact absurd hblocked (not_blockedOn_empty rest)
    | below _ _ hshared => cases hshared
    | done _ hsets =>
      refine .done ?_ (hsets.within ?_)
      · rw [blockedOn_cons_iff rfl, hmissing]
        rintro ⟨x, hx, -⟩
        cases hx
      · intro other hother
        obtain ⟨j, further, rfl⟩ := List.exists_cons_of_ne_nil hother
        show (Assoc.get? (.text k) entries).bind _ = none
        rw [hmissing]
        rfl
  | case4 k rest entries hrest inner hinner ih =>
    have hblocked : BlockedOn s (k :: rest) (.map entries) ↔ BlockedOn s rest (.map inner) := by
      rw [blockedOn_cons_iff rfl, hinner]
      simp
    have hkept : Assoc.put (.text k) (.map inner) entries = entries := Assoc.put_of_get? hinner
    have hwalk : Walked s value rest inner (setPath value rest inner) := ih hrest
    generalize setPath value rest inner = walk at hwalk
    cases hwalk with
    | blocked hinside =>
      rw [Walk.within, hkept]
      exact .blocked (hblocked.2 hinside)
    | below hfurther hshorter hshared hinside =>
      rw [Walk.within, hkept]
      refine .below hfurther (Nat.lt_succ_of_lt hshorter) ?_ (hblocked.trans hinside)
      rw [Bool.eq_false_iff]
      intro hunshared
      rw [Datum.unshared_of_get? hunshared hinner] at hshared
      cases hshared
    | done hfree hsets =>
      refine .done (fun h => hfree (hblocked.1 h)) (hsets.within fun other _ => ?_)
      show (Assoc.get? (.text k) entries).bind _ = _
      rw [hinner, Option.bind_some]
  | case5 k rest entries hrest kind label hlabel =>
    refine @Walked.below _ _ _ _ kind _ _ hrest (Nat.lt_succ_self _) ?_ ?_
    · rw [Bool.eq_false_iff]
      intro hunshared
      cases Datum.unshared_of_get? hunshared hlabel
    · rw [blockedOn_cons_iff rfl, hlabel]
      simp
  | case6 k rest entries hrest x hmap hshared hx =>
    refine .blocked ((blockedOn_cons_iff rfl).2 ⟨x, hx, blockedOn_of_not_isMap ?_ hrest⟩)
    cases x with
    | map inner => exact absurd rfl (hmap inner)
    | shared kind label => exact absurd rfl (hshared kind label)
    | _ => rfl

/-- **The way on from a label**: it is blocked and nothing changes, or the value is set. -/
theorem setShared_cases (s : Store) (value : Datum) (kind : GroupKind) (label : Nat) {bound : Nat} {path : List String}
    (hpath : path ≠ []) (hbound : path.length ≤ bound) :
    (BlockedOn s path (.shared kind label) ∧ setShared value s bound label path = (s, some .notAMapping)) ∨
    (¬ BlockedOn s path (.shared kind label) ∧ (setShared value s bound label path).2 = none) := by
  -- every label on the way leaves a shorter path, so the bound is not reached
  induction bound generalizing label path kind with
  | zero => exact absurd (List.length_eq_zero_iff.1 (Nat.le_zero.1 hbound)) hpath
  | succ bound ih =>
    by_cases hmap : (s.group label).isMap = true
    · obtain ⟨entries, hgroup⟩ := Datum.exists_map_of_isMap hmap
      have hlook : s.look (.shared kind label) = .map entries := hgroup
      have hkept : s.put label (.map entries) = s := by
        rw [← hgroup]
        exact s.put_group label
      rw [blockedOn_look hlook hpath]
      have hwalk := walked_setPath s value hpath entries
      unfold setShared
      rw [hgroup]
      dsimp only
      generalize setPath value path entries = walk at hwalk
      cases hwalk with
      | blocked hblocked =>
        rw [hkept]
        exact .inl ⟨hblocked, rfl⟩
      | @below kind label rest hrest hshorter _ hblocked =>
        rw [hkept, hblocked]
        exact ih kind label hrest (by omega)
      | done hfree => exact .inr ⟨hfree, rfl⟩
    · have hother : (s.look (.shared kind label)).isMap = false := Bool.eq_false_iff.2 hmap
      refine .inl ⟨blockedOn_of_not_isMap hother hpath, ?_⟩
      unfold setShared
      split
      · rename_i entries hgroup
        rw [hgroup] at hmap
        exact absurd rfl hmap
      · rfl

/-! ## §4. Attempts. -/

theorem segments_ne_nil (key : String) : segments key ≠ [] := by
  unfold segments Text.split
  rw [ne_eq, List.map_eq_nil_iff]
  cases key.toList with
  | nil => exact List.cons_ne_nil _ _
  | cons c rest =>
    rw [Text.splitChars]
    split
    · exact List.cons_ne_nil _ _
    · split <;> exact List.cons_ne_nil _ _

/-- **An attempt is blocked and leaves everything as it was, or it is done.** -/
theorem attempt_cases (c : Config) (key : String) (value : Datum) :
    (BlockedOn c.store (segments key) (.map c.entries) ∧ c.attempt key value = ⟨c, some .notAMapping⟩) ∨
    (¬ BlockedOn c.store (segments key) (.map c.entries) ∧ (c.attempt key value).error = none) := by
  have hwalk := walked_setPath c.store value (segments_ne_nil key) c.entries
  unfold attempt
  generalize setPath value (segments key) c.entries = walk at hwalk
  cases hwalk with
  | blocked hblocked => exact .inl ⟨hblocked, rfl⟩
  | @below kind label rest hrest _ _ hblocked =>
    rw [hblocked]
    obtain ⟨hinside, hshared⟩ | ⟨hfree, hnone⟩ :=
      setShared_cases c.store value kind label hrest (Nat.le_succ rest.length)
    · refine .inl ⟨hinside, ?_⟩
      dsimp only
      rw [hshared]
    · exact .inr ⟨hfree, hnone⟩
  | done hfree => exact .inr ⟨hfree, rfl⟩

/-- Where nothing is shared, an attempt that is done has set the value. -/
theorem sets_of_attempt {c : Config} (hunshared : (Datum.map c.entries).unshared = true) {key : String} {value : Datum}
    (h : (c.attempt key value).error = none) :
    Sets value (segments key) c.entries (c.attempt key value).config.entries := by
  have hwalk := walked_setPath c.store value (segments_ne_nil key) c.entries
  unfold attempt at h ⊢
  generalize setPath value (segments key) c.entries = walk at hwalk h ⊢
  cases hwalk with
  | blocked => cases h
  | below _ _ hshared =>
    rw [hunshared] at hshared
    cases hshared
  | done _ hsets => exact hsets

theorem unshared_setPath {value : Datum} (hvalue : value.unshared = true) (path : List String) {entries : Entries}
    (h : (Datum.map entries).unshared = true) : (Datum.map (setPath value path entries).entries).unshared = true := by
  fun_induction setPath value path entries with
  | case1 entries => exact h
  | case2 k entries => exact Datum.unshared_put h _ hvalue
  | case3 k rest entries hrest hmissing ih => exact Datum.unshared_put h _ (ih rfl)
  | case4 k rest entries hrest inner hinner ih => exact Datum.unshared_put h _ (ih (Datum.unshared_of_get? h hinner))
  | case5 k rest entries hrest kind label hlabel => exact h
  | case6 k rest entries hrest x hmap hshared hx => exact h

theorem unshared_attempt {c : Config} (h : (Datum.map c.entries).unshared = true) (key : String) {value : Datum}
    (hvalue : value.unshared = true) : (Datum.map (c.attempt key value).config.entries).unshared = true := by
  have hwalk : (c.attempt key value).config.entries = (setPath value (segments key) c.entries).entries := by
    unfold attempt
    simp only
    split <;> rfl
  rw [hwalk]
  exact unshared_setPath hvalue _ h

theorem set_of_failed {c : Config} {key : String} {value : Datum} {e : SetError}
    (h : (c.attempt key value).error = some e) : c.set key value = .error e := by
  unfold set
  simp only [h]

theorem set_of_done {c : Config} {key : String} {value : Datum} (h : (c.attempt key value).error = none) :
    c.set key value = .ok (c.attempt key value).config := by
  unfold set
  simp only [h]

/-! ## §5. Settings. -/

/-- One step on the way to a setting. -/
theorem getPath_cons (s : Store) (key : String) (rest : List String) {d : Datum} (hd : d.unshared = true) :
    getPath s (key :: rest) d = ((d.get? key).filter fun x => !x.isNull).bind (getPath s rest) := by
  rw [getPath, s.look_of_unshared hd]
  cases d with
  | map entries =>
    simp only [Datum.get?]
    cases Assoc.get? (.text key) entries with
    | none => rfl
    | some value => rcases value with (_ | _ | _ | _ | _ | _ | _) | _ | _ | _ | _ | _ <;> rfl
  | _ => rfl

/-- A path is followed as far as it leads, and null at its end counts as nothing. -/
theorem getPath_eq (s : Store) {path : List String} (hpath : path ≠ []) {d : Datum} (hd : d.unshared = true) :
    getPath s path d = (d.follow? path).filter fun x => !x.isNull := by
  induction path generalizing d with
  | nil => exact absurd rfl hpath
  | cons key rest ih =>
    rw [getPath_cons s key rest hd, Datum.follow?_cons]
    cases hvalue : d.get? key with
    | none => rfl
    | some value =>
      obtain ⟨entries, rfl, hentry⟩ := Datum.exists_map_of_get? hvalue
      rw [Option.bind_some]
      by_cases hrest : rest = []
      · subst hrest
        exact Option.bind_fun_some _
      · rw [← ih hrest (Datum.unshared_of_get? hd hentry), Option.filter_some]
        split
        · rfl
        · rename_i hnull
          -- nothing is below null
          obtain ⟨j, further, rfl⟩ := List.exists_cons_of_ne_nil hrest
          rw [getPath_cons s j further (Datum.unshared_of_get? hd hentry)]
          cases value with
          | scalar x => rfl
          | _ => exact absurd rfl hnull

/-- **A setting is what its path leads to**, unless that is null. -/
theorem getD_eq {c : Config} (h : (Datum.map c.entries).unshared = true) (key : String) (default : Datum) :
    c.getD key default = ((c.holds? (segments key)).filter fun x => !x.isNull).getD default := by
  unfold getD get?
  rw [getPath_eq c.store (segments_ne_nil key) h]
  rfl

/-! ## §6. Configurations that share nothing. -/

/-- The configuration after attempts to change settings, one after the other. -/
def after (c : Config) : List (String × Datum) → Config
  | [] => c
  | (key, value) :: rest => (c.attempt key value).config.after rest

theorem unshared_after {c : Config} (h : (Datum.map c.entries).unshared = true) {settings : List (String × Datum)}
    (hsettings : ∀ e ∈ settings, e.2.unshared = true) : (Datum.map (c.after settings).entries).unshared = true := by
  induction settings generalizing c with
  | nil => exact h
  | cons e rest ih =>
    obtain ⟨he, hrest⟩ := List.forall_mem_cons.1 hsettings
    exact ih (unshared_attempt h e.1 he) hrest

theorem unshared_mergeEntries {base given : Entries} (hbase : (Datum.map base).unshared = true)
    (hgiven : (Datum.map given).unshared = true) : (Datum.map (mergeEntries base given)).unshared = true := by
  fun_induction mergeEntries base given with
  | case1 base => exact hbase
  | case2 base key inner rest old hold ihinner ihrest =>
    obtain ⟨hentry, hrest⟩ := List.forall_mem_cons.1 (Datum.unshared_map_iff.1 hgiven)
    have hmerged := ihinner (Datum.unshared_of_get? hbase hold) hentry
    exact ihrest (Datum.unshared_put hbase key hmerged) (Datum.unshared_map_iff.2 hrest)
  | case3 base key inner rest hold ihrest =>
    obtain ⟨hentry, hrest⟩ := List.forall_mem_cons.1 (Datum.unshared_map_iff.1 hgiven)
    exact ihrest (Datum.unshared_put hbase key hentry) (Datum.unshared_map_iff.2 hrest)
  | case4 base key value rest hmap ihrest =>
    obtain ⟨hentry, hrest⟩ := List.forall_mem_cons.1 (Datum.unshared_map_iff.1 hgiven)
    exact ihrest (Datum.unshared_put hbase key hentry) (Datum.unshared_map_iff.2 hrest)

theorem unshared_standard (catalogPath : String) : (Datum.map (standard catalogPath).entries).unshared = true := rfl

/-- A configuration that shares nothing: settings laid over the standard ones, and then attempts to change some, all of
them with values that are held nowhere else. -/
def OfUnshared (catalogPath : String) (c : Config) : Prop :=
  ∃ given settings, (Datum.map given).unshared = true ∧ (∀ e ∈ settings, e.2.unshared = true) ∧
    c = ((standard catalogPath).merge given).after settings

theorem OfUnshared.unshared {catalogPath : String} {c : Config} (h : OfUnshared catalogPath c) :
    (Datum.map c.entries).unshared = true := by
  obtain ⟨given, settings, hgiven, hsettings, rfl⟩ := h
  exact unshared_after (unshared_mergeEntries (unshared_standard catalogPath) hgiven) hsettings

/-- **Setting is atomic, and lawful where nothing is shared.**  Whatever a configuration shares, an attempt fails exactly
if a value in front of the key's end is there and is no mapping, and then the configuration is left as it was.
Otherwise, if no mapping in it or in the value is held anywhere else, the key gives the value from then on, where null
counts as nothing, and every key apart from it gives what it gave before. -/
theorem attempt_is_atomic_and_lawful (c : Config) (key : String) (value : Datum) :
    ((c.attempt key value).error = some .notAMapping ↔
      ∃ before inside, before <+: segments key ∧ before ≠ segments key ∧
        c.store.follow? before (.map c.entries) = some inside ∧ (c.store.look inside).isMap = false) ∧
    ((c.attempt key value).error = some .notAMapping →
      c.set key value = .error .notAMapping ∧ (c.attempt key value).config = c) ∧
    ((c.attempt key value).error ≠ some .notAMapping → c.set key value = .ok (c.attempt key value).config ∧
      ∀ catalogPath, OfUnshared catalogPath c → value.unshared = true →
        (∀ default, (c.attempt key value).config.getD key default = if value.isNull then default else value) ∧
        ∀ other default, ¬ segments other <+: segments key → ¬ segments key <+: segments other →
          (c.attempt key value).config.getD other default = c.getD other default) := by
  obtain ⟨hblocked, hattempt⟩ | ⟨hfree, hnone⟩ := attempt_cases c key value
  · have hset := set_of_failed (c := c) (congrArg Attempt.error hattempt)
    rw [hattempt]
    exact ⟨⟨fun _ => hblocked, fun _ => rfl⟩, fun _ => ⟨hset, rfl⟩, fun hne => absurd rfl hne⟩
  · have hdone := set_of_done hnone
    refine ⟨⟨fun h => ?_, fun hblocked => absurd hblocked hfree⟩, fun h => ?_, fun _ => ⟨hdone, fun path hc hvalue => ?_⟩⟩
    · rw [hnone] at h
      cases h
    · rw [hnone] at h
      cases h
    · have hbefore := hc.unshared
      have hafter := unshared_attempt hbefore key hvalue
      have hsets := sets_of_attempt hbefore hnone
      refine ⟨fun default => ?_, fun other default hother hkey => ?_⟩
      · rw [getD_eq hafter, show holds? _ _ = some value from hsets.there]
        cases hnull : value.isNull <;> simp [Option.filter, hnull]
      · rw [getD_eq hafter, getD_eq hbefore, show holds? _ _ = c.holds? _ from hsets.apart _ ⟨hother, hkey⟩]

/-- Null in the place of a text, a mapping that was made on the way, and an attempt that failed. -/
def triedConfig : Config :=
  let given := [(.text "system", .text "none"), (.text "analysis", .object [("echo_sink", .null)])]
  ((standard "patterns.txt").merge given).after [("report.extra.flag", .bool true), ("report.format.kind", .int 1)]

theorem triedConfig_atomic_and_lawful :
    OfUnshared "patterns.txt" triedConfig ∧ (Datum.list [.int 1]).unshared = true ∧
    triedConfig.set "analysis.echo_sink.deep" (.list [.int 1]) = .error .notAMapping ∧
    (triedConfig.attempt "analysis.echo_sink.deep" (.list [.int 1])).config = triedConfig ∧
    triedConfig.set "report.extra.level" (.list [.int 1])
      = .ok (triedConfig.attempt "report.extra.level" (.list [.int 1])).config ∧
    (triedConfig.attempt "report.extra.level" (.list [.int 1])).config.getD "report.extra.level" .null = .list [.int 1] ∧
    (triedConfig.attempt "report.extra.level" (.list [.int 1])).config.getD "report.extra.flag" .null = .bool true := by
  have hc : OfUnshared "patterns.txt" triedConfig := ⟨_, _, rfl, by decide, rfl⟩
  obtain ⟨-, hunchanged, -⟩ := attempt_is_atomic_and_lawful triedConfig "analysis.echo_sink.deep" (.list [.int 1])
  obtain ⟨-, -, hset⟩ := attempt_is_atomic_and_lawful triedConfig "report.extra.level" (.list [.int 1])
  have hfails : (triedConfig.attempt "analysis.echo_sink.deep" (.list [.int 1])).error = some .notAMapping := by cbv
  have hfree : (triedConfig.attempt "report.extra.level" (.list [.int 1])).error ≠ some .notAMapping := by
    rw [show (triedConfig.attempt "report.extra.level" (.list [.int 1])).error = none by cbv]
    exact (Option.some_ne_none _).symm
  obtain ⟨hdone, hlawful⟩ := hset hfree
  obtain ⟨hthere, hapart⟩ := hlawful "patterns.txt" hc rfl
  refine ⟨hc, rfl, (hunchanged hfails).1, (hunchanged hfails).2, hdone, hthere .null, ?_⟩
  rw [hapart "report.extra.flag" .null (by decide) (by decide)]
  cbv

/-! ## §7. Mappings that are held in two places. -/

/-- The configuration with the setting under a key handed out, and that setting.  Whoever asks for a mapping is given
the very one that the configuration holds, so it has a label from then on. -/
def lend (c : Config) (key : String) : Config × Datum :=
  match c.get? key with
  | some (.map entries) =>
    let (store, label) := c.store.keep (.map entries)
    let held := Datum.shared .map label
    (({ c with store := store }.attempt key held).config, held)
  | some value => (c, value)
  | none => (c, .null)

/-- The standard settings with those of a document, which has one mapping under two keys. -/
def twiceHeld : Config :=
  mergeDocument (standard "patterns.txt").entries
    ⟨⟨#[.object [("level", .int 1)]]⟩, .object [("backup", .shared .map 0), ("copy", .shared .map 0)]⟩

/-- The standard settings, after those of the analysis have been given as the value of another setting. -/
def backedUp : Config :=
  let (lent, analysis) := (standard "patterns.txt").lend "analysis"
  (lent.attempt "backup" analysis).config

/-- The standard settings, after those of the analysis have been given as the value of one of their own. -/
def selfHeld : Config :=
  let (lent, analysis) := (standard "patterns.txt").lend "analysis"
  (lent.attempt "analysis.loop" analysis).config

/-- **Where a mapping is held in two places, the laws fail.**  What is set under a key shows under one that is apart
from it, whether a document has the mapping twice or one setting has been given as the value of another; and in a
mapping that holds itself, a key does not even give what it has been set to. -/
theorem shared_mappings_break_the_laws :
    (Apart (segments "backup.level") (segments "copy.level") ∧
      twiceHeld.getD "copy.level" .null = .int 1 ∧
      (twiceHeld.attempt "backup.level" (.int 2)).error = none ∧
      (twiceHeld.attempt "backup.level" (.int 2)).config.getD "copy.level" .null = .int 2) ∧
    ((standard "patterns.txt").lend "analysis").1.toDatum = (standard "patterns.txt").toDatum ∧
    (Apart (segments "analysis.block_strategy") (segments "backup.block_strategy") ∧
      backedUp.getD "backup.block_strategy" .null = .text "first" ∧
      (backedUp.attempt "analysis.block_strategy" (.text "all")).error = none ∧
      (backedUp.attempt "analysis.block_strategy" (.text "all")).config.getD "backup.block_strategy" .null
        = .text "all") ∧
    (selfHeld.attempt "analysis.loop.loop" (.int 5)).error = none ∧
      (selfHeld.attempt "analysis.loop.loop" (.int 5)).config.getD "analysis.loop.loop" .null = .null := by
  refine ⟨⟨⟨by decide, by decide⟩, ?_, ?_, ?_⟩, ?_, ⟨⟨by decide, by decide⟩, ?_, ?_, ?_⟩, ?_, ?_⟩ <;> cbv

end Config

end TaintFlow
