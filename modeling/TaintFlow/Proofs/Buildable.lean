/-
  TaintFlow.Proofs.Buildable
  ──────────────────────────
  **Exactly which values cannot be built.**

  Whatever is missing or misplaced in a value is degraded, with one exception: an interpolated text
  whose parts are given by a number or by `true`.  It ends the building from wherever the builders
  come to it, and nowhere else does anything go wrong with what a data file can hold:

    • `Position`, `Reaches` — the values that nodes are made of, one rule for each field,
    • `nestedWithin` — how deeply nodes are nested in a value,
    • `exists_faulty_of_fault?`, `fault?_ne_none` — a value that is not nested too deeply has a fault
      exactly if one is visited,
    • `build_fails_exactly_on_numbers` — building fails exactly if it reaches such a text,
    • `loadText_ne_unwritable` — the numbers in a text can all be written.
-/
import TaintFlow.Proofs.Degradations
import TaintFlow.Proofs.Reading

namespace TaintFlow

namespace Syntax

/-! ## §1. Positions, field by field. -/

/-- The value is an object of the kind. -/
def OfKind (raw : Datum) (kind : Kind) : Prop := raw.get? "kind" = some (.text kind.name)

/-- The field holds the statements of a branch or of a loop. -/
inductive BodyField (raw : Datum) : String → Prop where
  | thenBranch (hkind : OfKind raw .cond) : BodyField raw "body"
  | elseBranch (hkind : OfKind raw .cond) : BodyField raw "alternate"
  | loopBody (hkind : OfKind raw .loop) : BodyField raw "body"

/-- **The values that the node of an object is made of**, one rule for each field that its kind uses. -/
inductive Position (raw : Datum) : Datum → Prop where
  | operand {kind : Kind} {name : String} (hkind : OfKind raw kind) (hbinary : kind = .assign ∨ kind = .bin)
    (hname : name = "left" ∨ name = "right") (hpresent : raw.field name ≠ .null) : Position raw (raw.field name)
  | test {kind : Kind} (hkind : OfKind raw kind) (hguarded : kind = .cond ∨ kind = .loop)
    (hpresent : raw.field "test" ≠ .null) : Position raw (raw.field "test")
  | offset (hkind : OfKind raw .offsetLookup) (hpresent : raw.field "offset" ≠ .null) :
    Position raw (raw.field "offset")
  | argument {kind : Kind} {l : List Datum} {d : Datum} (hkind : OfKind raw kind)
    (happlied : kind = .echo ∨ kind = .call) (hlist : raw.field "arguments" = .list l) (hd : d ∈ l) : Position raw d
  | child {l : List Datum} {d : Datum} (hkind : OfKind raw .block) (hlist : raw.field "children" = .list l)
    (hd : d ∈ l) : Position raw d
  | statement {name : String} (hbody : BodyField raw name) (hpresent : raw.field name ≠ .null)
    (hsingle : ¬ OfKind (raw.field name) .block) : Position raw (raw.field name)
  | blockStatement {name : String} {l : List Datum} {d : Datum} (hbody : BodyField raw name)
    (hblock : OfKind (raw.field name) .block) (hlist : (raw.field name).field "children" = .list l) (hd : d ∈ l) :
    Position raw d
  | part {l : List Datum} {item : Datum} (hkind : OfKind raw .encapsed) (hlist : raw.field "value" = .list l)
    (hitem : item ∈ l) : Position raw (unwrapPart item)

/-- Positions of positions lead from the first value to the second. -/
def Reaches : Datum → Datum → Prop := Relation.ReflTransGen Position

/-- An interpolated text whose parts are given by `true` or by a number other than zero. -/
structure NumberForParts (raw : Datum) : Prop where
  kind : OfKind raw .encapsed
  number : raw.field "value" = .bool true ∨ (∃ n, n ≠ 0 ∧ raw.field "value" = .int n) ∨
    ∃ x : Binary64, x.isZero = false ∧ raw.field "value" = .real x

theorem ofName?_eq_some_iff {name : String} {kind : Kind} : Kind.ofName? name = some kind ↔ name = kind.name := by
  constructor
  · intro h
    have hname := List.find?_some h
    exact (of_decide_eq_true hname).symm
  · rintro rfl
    cases kind <;> rfl

theorem isMap_of_get? {raw d : Datum} {name : String} (h : raw.get? name = some d) : raw.isMap = true := by
  cases raw with
  | map entries => rfl
  | _ => cases h

theorem kind?_eq_some_iff {raw : Datum} {kind : Kind} : kind? raw = some kind ↔ OfKind raw kind := by
  unfold kind? OfKind
  constructor
  · intro h
    by_cases hmap : raw.isMap = true
    · rw [if_pos hmap] at h
      split at h
      · rename_i name hname
        rw [hname, ofName?_eq_some_iff.1 h]
      · cases h
    · rw [if_neg hmap] at h
      cases h
  · intro h
    rw [if_pos (isMap_of_get? h), h]
    exact ofName?_eq_some_iff.2 rfl

/-! ## §2. Positions and visits. -/

theorem mem_items {x d : Datum} : d ∈ items x ↔ ∃ l, x = .list l ∧ d ∈ l := by
  constructor
  · intro h
    cases x with
    | list l => exact ⟨l, rfl, h⟩
    | _ => cases h
  · rintro ⟨l, rfl, hd⟩
    exact hd

theorem mem_present {raw d : Datum} {name : String} :
    d ∈ present raw name ↔ raw.field name ≠ .null ∧ d = raw.field name := by
  by_cases hnull : raw.field name = .null
  · simp [present, hnull]
  · rw [present_of_ne_null hnull, List.mem_singleton, and_iff_right hnull]

theorem mem_bodyItems {x d : Datum} :
    d ∈ bodyItems x ↔ (x ≠ .null ∧ ¬ OfKind x .block ∧ d = x) ∨
      OfKind x .block ∧ ∃ l, x.field "children" = .list l ∧ d ∈ l := by
  by_cases hblock : OfKind x .block
  · rw [bodyItems_of_block hblock, mem_items]
    simp [hblock]
  · by_cases hnull : x = .null
    · subst hnull
      simp [bodyItems, hblock]
    · rw [bodyItems_of_statement hnull hblock, List.mem_singleton]
      simp [hnull, hblock]

/-- What is at a position is visited. -/
theorem Position.inside {raw d : Datum} (h : Position raw d) : Inside raw d := by
  have hbody : ∀ {name : String} {x : Datum}, BodyField raw name → x ∈ bodyItems (raw.field name) → Inside raw x := by
    rintro name x (hkind | hkind | hkind) hx
    · exact ⟨.cond, kind?_eq_some_iff.2 hkind, by simp [positions, hx]⟩
    · exact ⟨.cond, kind?_eq_some_iff.2 hkind, by simp [positions, hx]⟩
    · exact ⟨.loop, kind?_eq_some_iff.2 hkind, by simp [positions, hx]⟩
  cases h with
  | @operand kind name hkind hbinary hname hpresent =>
    refine ⟨kind, kind?_eq_some_iff.2 hkind, ?_⟩
    have hmem := field_mem_present hpresent
    rcases hbinary with rfl | rfl <;> rcases hname with rfl | rfl <;> simp [positions, hmem]
  | @test kind hkind hguarded hpresent =>
    refine ⟨kind, kind?_eq_some_iff.2 hkind, ?_⟩
    have hmem := field_mem_present hpresent
    rcases hguarded with rfl | rfl <;> simp [positions, hmem]
  | offset hkind hpresent => exact ⟨.offsetLookup, kind?_eq_some_iff.2 hkind, field_mem_present hpresent⟩
  | @argument kind l _ hkind happlied hlist hd =>
    refine ⟨kind, kind?_eq_some_iff.2 hkind, ?_⟩
    have hmem : d ∈ items (raw.field "arguments") := mem_items.2 ⟨l, hlist, hd⟩
    rcases happlied with rfl | rfl <;> exact hmem
  | @child l _ hkind hlist hd => exact ⟨.block, kind?_eq_some_iff.2 hkind, mem_items.2 ⟨l, hlist, hd⟩⟩
  | statement hfield hpresent hsingle => exact hbody hfield (mem_bodyItems.2 (.inl ⟨hpresent, hsingle, rfl⟩))
  | @blockStatement name l _ hfield hblock hlist hd =>
    exact hbody hfield (mem_bodyItems.2 (.inr ⟨hblock, l, hlist, hd⟩))
  | @part l item hkind hlist hitem =>
    refine ⟨.encapsed, kind?_eq_some_iff.2 hkind, ?_⟩
    have hne : l ≠ [] := List.ne_nil_of_mem hitem
    simp only [positions, partItems, hlist, Datum.truth, Datum.members?]
    simp [hne, List.mem_map_of_mem hitem]

/-- A value from a data file has such values at its positions. -/
theorem Position.isJson {raw d : Datum} (h : Position raw d) (hraw : raw.isJson = true) : d.isJson = true := by
  cases h with
  | operand => exact Datum.isJson_field hraw _
  | test => exact Datum.isJson_field hraw _
  | offset => exact Datum.isJson_field hraw _
  | argument _ _ hlist hd => exact Datum.isJson_of_mem (hlist ▸ Datum.isJson_field hraw _) hd
  | child _ hlist hd => exact Datum.isJson_of_mem (hlist ▸ Datum.isJson_field hraw _) hd
  | statement => exact Datum.isJson_field hraw _
  | blockStatement _ _ hlist hd =>
    exact Datum.isJson_of_mem (hlist ▸ Datum.isJson_field (Datum.isJson_field hraw _) _) hd
  | @part l item _ hlist hitem =>
    have hjson : item.isJson = true := Datum.isJson_of_mem (hlist ▸ Datum.isJson_field hraw _) hitem
    unfold unwrapPart
    split
    · exact Datum.isJson_field hjson _
    · exact hjson

theorem Reaches.isJson {raw d : Datum} (h : Reaches raw d) (hraw : raw.isJson = true) : d.isJson = true := by
  induction h with
  | refl => exact hraw
  | tail _ hposition ih => exact hposition.isJson ih

/-- The parts of an interpolated text from a data file that are objects stand in a list. -/
theorem exists_item_of_mem_partItems {value d : Datum} (hvalue : value.isJson = true) (hd : d ∈ partItems value)
    (hmap : d.isMap = true) : ∃ l item, value = .list l ∧ item ∈ l ∧ d = unwrapPart item := by
  unfold partItems at hd
  split at hd
  · obtain ⟨item, hitem, rfl⟩ := List.mem_map.1 hd
    cases value with
    | list l => exact ⟨l, item, rfl, hitem, rfl⟩
    | scalar s =>
      -- the members of a text are its characters, and no other scalar from a data file has any
      cases s with
      | text value =>
        obtain ⟨c, -, rfl⟩ := List.mem_map.1 hitem
        cases hmap
      | bytes value => cases hvalue
      | _ => cases hitem
    | map entries =>
      obtain ⟨e, -, rfl⟩ := List.mem_map.1 hitem
      cases hmap
    | tuple items => cases hvalue
    | set members => cases hvalue
    | shared kind label => cases hvalue
  · cases hd

/-- An object that is visited is at a position. -/
theorem position_of_inside {raw d : Datum} (hraw : raw.isJson = true) (hmap : d.isMap = true) (h : Inside raw d) :
    Position raw d := by
  obtain ⟨kind, hkind, hd⟩ := h
  rw [kind?_eq_some_iff] at hkind
  -- kinds share their fields, so each field is looked at once for all of them
  have hbody : ∀ {name : String}, BodyField raw name → d ∈ bodyItems (raw.field name) → Position raw d := by
    intro name hfield hd
    obtain ⟨hpresent, hsingle, rfl⟩ | ⟨hblock, l, hlist, hd⟩ := mem_bodyItems.1 hd
    · exact .statement hfield hpresent hsingle
    · exact .blockStatement hfield hblock hlist hd
  have hoperand : kind = .assign ∨ kind = .bin → d ∈ present raw "left" ++ present raw "right" → Position raw d := by
    intro hbinary hd
    rcases List.mem_append.1 hd with hd | hd
    · obtain ⟨hpresent, rfl⟩ := mem_present.1 hd
      exact .operand hkind hbinary (.inl rfl) hpresent
    · obtain ⟨hpresent, rfl⟩ := mem_present.1 hd
      exact .operand hkind hbinary (.inr rfl) hpresent
  have hargument : kind = .echo ∨ kind = .call → d ∈ items (raw.field "arguments") → Position raw d := by
    intro happlied hd
    obtain ⟨l, hlist, hd⟩ := mem_items.1 hd
    exact .argument hkind happlied hlist hd
  have htest : kind = .cond ∨ kind = .loop → d ∈ present raw "test" → Position raw d := by
    intro hguarded hd
    obtain ⟨hpresent, rfl⟩ := mem_present.1 hd
    exact .test hkind hguarded hpresent
  cases kind with
  | assign => exact hoperand (.inl rfl) hd
  | bin => exact hoperand (.inr rfl) hd
  | echo => exact hargument (.inl rfl) hd
  | call => exact hargument (.inr rfl) hd
  | cond =>
    rcases List.mem_append.1 hd with hd | hd
    · exact htest (.inl rfl) hd
    · rcases List.mem_append.1 hd with hd | hd
      · exact hbody (.thenBranch hkind) hd
      · exact hbody (.elseBranch hkind) hd
  | loop =>
    rcases List.mem_append.1 hd with hd | hd
    · exact htest (.inr rfl) hd
    · exact hbody (.loopBody hkind) hd
  | offsetLookup =>
    obtain ⟨hpresent, rfl⟩ := mem_present.1 hd
    exact .offset hkind hpresent
  | var => cases hd
  | string => cases hd
  | encapsed =>
    obtain ⟨l, item, hlist, hitem, rfl⟩ := exists_item_of_mem_partItems (Datum.isJson_field hraw "value") hd hmap
    exact .part hkind hlist hitem
  | block =>
    obtain ⟨l, hlist, hd⟩ := mem_items.1 hd
    exact .child hkind hlist hd

theorem isMap_of_kind? {raw : Datum} {kind : Kind} (h : kind? raw = some kind) : raw.isMap = true :=
  isMap_of_get? (kind?_eq_some_iff.1 h)

/-- Only objects lead on. -/
theorem isMap_of_visits {raw d : Datum} (hd : d.isMap = true) (h : Visits raw d) : raw.isMap = true := by
  rcases Relation.ReflTransGen.cases_head h with rfl | ⟨c, ⟨kind, hkind, -⟩, -⟩
  · exact hd
  · exact isMap_of_kind? hkind

/-- **The objects that are visited are those that positions lead to.** -/
theorem reaches_iff_visits {raw d : Datum} (hraw : raw.isJson = true) (hd : d.isMap = true) :
    Reaches raw d ↔ Visits raw d := by
  constructor
  · exact Relation.ReflTransGen.mono (fun _ _ hposition => hposition.inside) raw d
  · -- from the front, since it is the values on the way that have to come from a data file
    intro h
    induction h using Relation.ReflTransGen.head_induction_on with
    | refl => exact .refl
    | head hinside hvisits ih =>
      have hposition := position_of_inside hraw (isMap_of_visits hd hvisits) hinside
      exact .head hposition (ih (hposition.isJson hraw))

/-- In a data file, parts that cannot be walked over are numbers other than zero and `true`. -/
theorem unwalkable_iff {raw : Datum} (hraw : raw.isJson = true) : Unwalkable raw ↔ NumberForParts raw := by
  have hvalue := Datum.isJson_field hraw "value"
  constructor
  · rintro ⟨hkind, htruth, hmembers⟩
    refine ⟨kind?_eq_some_iff.1 hkind, ?_⟩
    cases hfield : raw.field "value" with
    | scalar s =>
      rw [hfield] at hvalue htruth hmembers
      cases s with
      | null => cases htruth
      | bool b => exact .inl (congrArg Datum.bool htruth)
      | int n => exact .inr (.inl ⟨n, by simpa [Datum.truth] using htruth, rfl⟩)
      | real x => exact .inr (.inr ⟨x, by simpa [Datum.truth] using htruth, rfl⟩)
      | text s => cases hmembers
      | bytes b => cases hvalue
      | moment t => cases hvalue
    | list l =>
      rw [hfield] at hmembers
      cases hmembers
    | map entries =>
      rw [hfield] at hmembers
      cases hmembers
    | tuple l =>
      rw [hfield] at hvalue
      cases hvalue
    | set members =>
      rw [hfield] at hvalue
      cases hvalue
    | shared kind label =>
      rw [hfield] at hvalue
      cases hvalue
  · rintro ⟨hkind, hnumber⟩
    refine ⟨kind?_eq_some_iff.2 hkind, ?_, ?_⟩
    · obtain hvalue | ⟨n, hn, hvalue⟩ | ⟨x, hx, hvalue⟩ := hnumber
      · rw [hvalue]
        rfl
      · rw [hvalue]
        simpa [Datum.truth] using hn
      · rw [hvalue]
        simpa [Datum.truth] using hx
    · obtain hvalue | ⟨n, -, hvalue⟩ | ⟨x, -, hvalue⟩ := hnumber <;> rw [hvalue] <;> rfl

/-- **In a data file there is one fault only**: a number for parts. -/
theorem faulty_iff {raw : Datum} (hraw : raw.isJson = true) {e : BuildError} :
    Faulty e raw ↔ e = .partsNotWalkable ∧ NumberForParts raw := by
  cases e with
  | partsNotWalkable =>
    show Unwalkable raw ↔ _
    rw [unwalkable_iff hraw, and_iff_right rfl]
  | unwritable =>
    constructor
    · rintro ⟨kind, name, -, -, hwritable⟩
      rw [Datum.writable_of_isJson _ (Datum.isJson_field hraw name)] at hwritable
      cases hwritable
    · rintro ⟨hne, -⟩
      cases hne
  | tooDeep =>
    constructor
    · exact False.elim
    · rintro ⟨hne, -⟩
      cases hne

/-- Only objects are faulty. -/
theorem isMap_of_faulty {raw : Datum} {e : BuildError} (h : Faulty e raw) : raw.isMap = true := by
  obtain ⟨kind, hkind, -⟩ := Option.bind_eq_some_iff.1 (ownFault?_eq_some_iff.2 h)
  exact isMap_of_kind? hkind

/-- A fault that is visited in a value from a data file is a number for parts, and positions lead to it. -/
theorem number_of_visits {raw d : Datum} {e : BuildError} (hraw : raw.isJson = true) (hvisits : Visits raw d)
    (hd : Faulty e d) : e = .partsNotWalkable ∧ Reaches raw d ∧ NumberForParts d := by
  have hreaches := (reaches_iff_visits hraw (isMap_of_faulty hd)).2 hvisits
  obtain ⟨he, hnumber⟩ := (faulty_iff (hreaches.isJson hraw)).1 hd
  exact ⟨he, hreaches, hnumber⟩

theorem visits_of_number {raw d : Datum} (hraw : raw.isJson = true) (hreaches : Reaches raw d)
    (hd : NumberForParts d) : Visits raw d ∧ Faulty .partsNotWalkable d := by
  have hfaulty : Faulty .partsNotWalkable d := (faulty_iff (hreaches.isJson hraw)).2 ⟨rfl, hd⟩
  exact ⟨(reaches_iff_visits hraw (isMap_of_faulty hfaulty)).1 hreaches, hfaulty⟩

/-! ## §3. Faults. -/

/-- Are the nodes of the value nested at most so deeply? -/
def nestedWithin : (limit : Nat) → Datum → Bool
  | 0, _ => false
  | limit + 1, raw => (insides raw).all (nestedWithin limit)

/-- A value that is not nested too deeply has a fault only if one is visited. -/
theorem exists_faulty_of_fault? {limit : Nat} {raw : Datum} {e : BuildError} (h : nestedWithin limit raw = true)
    (hfault : fault? limit raw = some e) : ∃ d, Visits raw d ∧ Faulty e d := by
  induction limit generalizing raw with
  | zero => cases h
  | succ limit ih =>
    rw [nestedWithin, List.all_eq_true] at h
    rw [fault?, Option.or_eq_some_iff] at hfault
    rcases hfault with hown | ⟨-, hinside⟩
    · exact ⟨raw, .refl, ownFault?_eq_some_iff.1 hown⟩
    · obtain ⟨c, hc, hfault⟩ := List.exists_of_findSome?_eq_some hinside
      obtain ⟨d, hvisits, hd⟩ := ih (h c hc) hfault
      exact ⟨d, .head (mem_insides.1 hc) hvisits, hd⟩

/-- A fault that is visited makes the building fail, if nothing else does before. -/
theorem fault?_ne_none {raw d : Datum} {e : BuildError} (hvisits : Visits raw d) (hd : Faulty e d) (limit : Nat) :
    fault? limit raw ≠ none := by
  induction hvisits using Relation.ReflTransGen.head_induction_on generalizing limit with
  | refl =>
    cases limit with
    | zero => exact Option.some_ne_none _
    | succ limit =>
      rw [fault?, ownFault?_eq_some_iff.2 hd]
      exact Option.some_ne_none _
  | @head raw c hinside _ ih =>
    cases limit with
    | zero => exact Option.some_ne_none _
    | succ limit =>
      rw [fault?, ne_eq, Option.or_eq_none_iff, List.findSome?_eq_none_iff]
      intro hnone
      exact ih limit (hnone.2 c (mem_insides.2 hinside))

/-- The fault tells how the building of a value ends. -/
theorem build_eq_error_iff (limit : Nat) (raw : Datum) (notes : Notes) (e : BuildError) :
    ((build limit raw).run notes).1 = .error e ↔ fault? limit raw = some e := by
  have hmakes := makes_build limit raw [] notes.diagnostics notes rfl
  rcases hrun : (build limit raw).run notes with ⟨e' | n, after⟩
  · rw [hmakes.2 e' after hrun]
    simp
  · rw [(hmakes.1 n after hrun).1]
    simp

theorem build_eq_ok_iff (limit : Nat) (raw : Datum) (notes : Notes) :
    (∃ n, ((build limit raw).run notes).1 = .ok n) ↔ fault? limit raw = none := by
  have hmakes := makes_build limit raw [] notes.diagnostics notes rfl
  rcases hrun : (build limit raw).run notes with ⟨e | n, after⟩
  · rw [hmakes.2 e after hrun]
    simp
  · rw [(hmakes.1 n after hrun).1]
    simp

/-- **Building fails exactly if it reaches an interpolated text whose parts are given by `true` or by a number other
than zero**; every other value from a data file, nested not too deeply, becomes a node. -/
theorem build_fails_exactly_on_numbers (limit : Nat) (raw : Datum) (hjson : raw.isJson = true)
    (hnested : nestedWithin limit raw = true) (notes : Notes) :
    ((∃ n, ((build limit raw).run notes).1 = .ok n) ↔ ¬ ∃ d, Reaches raw d ∧ NumberForParts d) ∧
    (((build limit raw).run notes).1 = .error .partsNotWalkable ↔ ∃ d, Reaches raw d ∧ NumberForParts d) := by
  rw [build_eq_ok_iff, build_eq_error_iff]
  cases hfault : fault? limit raw with
  | none =>
    have hfree : ¬ ∃ d, Reaches raw d ∧ NumberForParts d := by
      rintro ⟨d, hreaches, hd⟩
      obtain ⟨hvisits, hfaulty⟩ := visits_of_number hjson hreaches hd
      exact fault?_ne_none hvisits hfaulty limit hfault
    exact ⟨⟨fun _ => hfree, fun _ => rfl⟩, nofun, fun hd => absurd hd hfree⟩
  | some e =>
    obtain ⟨d, hvisits, hfaulty⟩ := exists_faulty_of_fault? hnested hfault
    obtain ⟨rfl, hreaches, hd⟩ := number_of_visits hjson hvisits hfaulty
    exact ⟨⟨nofun, fun hfree => absurd ⟨d, hreaches, hd⟩ hfree⟩, fun _ => ⟨d, hreaches, hd⟩, fun _ => rfl⟩

/-- An interpolated text with `true` for its parts. -/
def trueText : Datum := .object [("kind", .text "encapsed"), ("value", .bool true)]

/-- A branch that prints such a text, interpolated into another. -/
def wrappedTrueText : Datum :=
  .object
    [("kind", .text "if"),
     ("body", .object
       [("kind", .text "block"),
        ("children", .list
          [.object
            [("kind", .text "echo"),
             ("arguments", .list
               [.object
                 [("kind", .text "encapsed"),
                  ("value", .list [.object [("kind", .text "encapsedpart"), ("expression", trueText)]])]])]])])]

/-- Such texts where nothing is built of them: as the name of a function, and as the kind of a node. -/
def sparedTrueText : Datum :=
  .object [("kind", .text "call"), ("what", trueText), ("arguments", .list [.object [("kind", trueText)]])]

theorem wrappedTrueText_fails_sparedTrueText_builds :
    (wrappedTrueText.isJson = true ∧ nestedWithin 4 wrappedTrueText = true ∧
      ((build 4 wrappedTrueText).run {}).1 = .error .partsNotWalkable) ∧
    sparedTrueText.isJson = true ∧ nestedWithin 2 sparedTrueText = true ∧
      ¬ ∃ d, Reaches sparedTrueText d ∧ NumberForParts d := by
  have hjson : wrappedTrueText.isJson = true := by decide +kernel
  have hnested : nestedWithin 4 wrappedTrueText = true := by decide +kernel
  have hjson' : sparedTrueText.isJson = true := by decide +kernel
  have hnested' : nestedWithin 2 sparedTrueText = true := by decide +kernel
  refine ⟨⟨hjson, hnested, ?_⟩, hjson', hnested', ?_⟩
  · -- from the branch to its one statement, to the argument, and into the wrapper
    have hreaches : Reaches wrappedTrueText trueText :=
      .head (.blockStatement (.thenBranch rfl) rfl rfl (List.mem_singleton_self _))
        (.head (.argument (show OfKind _ .echo from rfl) (.inl rfl) rfl (List.mem_singleton_self _))
          (.head (.part rfl rfl (List.mem_singleton_self _)) .refl))
    exact (build_fails_exactly_on_numbers 4 wrappedTrueText hjson hnested {}).2.2
      ⟨trueText, hreaches, ⟨rfl, .inl rfl⟩⟩
  · exact (build_fails_exactly_on_numbers 2 sparedTrueText hjson' hnested' {}).1.1 ⟨_, rfl⟩

/-! ## §4. Texts. -/

/-- **The numbers in a text can all be written**, since the reader has refused those with too many digits. -/
theorem loadText_ne_unwritable (limits : Limits) (text : String) (notes : Notes) :
    (loadText limits text notes).1 ≠ .error .unwritable := by
  intro h
  unfold loadText decode at h
  cases hread : Json.read limits.text text with
  | error why =>
    rw [hread] at h
    cases why <;> cases h
  | ok data =>
    rw [hread] at h
    have hload : (load limits data notes).1 = .error (.ofBuildError .unwritable) := h
    obtain ⟨children, hchildren, child, hchild, d, hvisits, hd⟩ := contains_of_load (by nofun) hload
    have hdata := Datum.isJson_field (Json.isJson_of_read hread) "children"
    rw [hchildren] at hdata
    -- a fault in a text is a number for parts
    obtain ⟨hne, -⟩ := number_of_visits (Datum.isJson_of_mem hdata hchild) hvisits hd
    cases hne

end Syntax

end TaintFlow
