/-
  TaintFlow.Proofs.Names
  ──────────────────────
  **Texts without blanks around them.**

  Names are trimmed wherever they come from.  What trimming comes to is said here by the first and
  the last character, apart from the function that trims:

    • `Text.IsTrimmed`, `Text.IsName` — no blank at either end; and not empty,
    • `Text.isTrimmed_trim`, `Text.trim_of_isTrimmed` — trimming gives such a text and keeps it,
    • `isName_of_mem_cleanNames`, `cleanNames_of_isName` — the same for lists of names,
    • `Pattern.Built` — the patterns that values make, and `Pattern.Built.listsNames`,
    • `Datum.visible_display` — a value that is no text is never written as blanks.
-/
import Mathlib.Data.List.DropRight
import TaintFlow.Pattern.Basic

namespace TaintFlow

/-! ## §1. Trimming. -/

namespace Text

/-- No blank stands at either end of the text. -/
def IsTrimmed (s : String) : Prop :=
  (∀ c ∈ s.toList.head?, isBlank c = false) ∧ ∀ c ∈ s.toList.getLast?, isBlank c = false

instance (s : String) : Decidable (IsTrimmed s) := inferInstanceAs (Decidable (_ ∧ _))

/-- **The text is a name**: it is not empty, and no blank stands at either end. -/
structure IsName (s : String) : Prop where
  ne_empty : s ≠ ""
  trimmed : IsTrimmed s

/-- There is something to see in the text. -/
def Visible (s : String) : Prop := ∃ c ∈ s.toList, isBlank c = false

theorem trimChars_eq (cs : List Char) : trimChars cs = (cs.dropWhile isBlank).rdropWhile isBlank := rfl

theorem toList_trim (s : String) : (trim s).toList = trimChars s.toList := String.toList_ofList

/-- **Trimming leaves no blank at either end.** -/
theorem isTrimmed_trim (s : String) : IsTrimmed (trim s) := by
  unfold IsTrimmed
  rw [toList_trim, trimChars_eq]
  constructor
  · intro c hc
    obtain ⟨rest, hrest⟩ := List.head?_eq_some_iff.1 hc
    -- the first character left is the first one behind the blanks in front
    obtain ⟨dropped, hdropped⟩ := List.rdropWhile_prefix isBlank (s.toList.dropWhile isBlank)
    rw [hrest, List.cons_append] at hdropped
    have hfirst := List.head_dropWhile_not isBlank (l := s.toList) (by rw [← hdropped]; exact List.cons_ne_nil _ _)
    simpa only [← hdropped, List.head_cons] using hfirst
  · intro c hc
    obtain ⟨hne, hlast⟩ := List.mem_getLast?_eq_getLast hc
    rw [hlast]
    exact Bool.eq_false_iff.2 (List.rdropWhile_last_not isBlank _ hne)

/-- **A text without blanks at either end is kept as it is.** -/
theorem trim_of_isTrimmed {s : String} (h : IsTrimmed s) : trim s = s := by
  have hfront : s.toList.dropWhile isBlank = s.toList := by
    cases hs : s.toList with
    | nil => rfl
    | cons c rest => exact List.dropWhile_cons_of_neg (Bool.eq_false_iff.1 (h.1 c (by rw [hs]; rfl)))
  have hback : s.toList.rdropWhile isBlank = s.toList := by
    rw [List.rdropWhile_eq_self_iff]
    intro hne
    exact Bool.eq_false_iff.1 (h.2 _ (List.getLast_mem_getLast? hne))
  unfold trim
  rw [trimChars_eq, hfront, hback, String.ofList_toList]

/-- Trimming leaves nothing exactly of a text of blanks. -/
theorem trim_eq_empty_iff (s : String) : trim s = "" ↔ ∀ c ∈ s.toList, isBlank c = true := by
  unfold trim
  rw [String.ofList_eq_empty_iff, trimChars_eq, List.rdropWhile_eq_nil_iff]
  constructor
  · intro h
    have hnil : s.toList.dropWhile isBlank = [] := by
      by_contra hne
      have hfirst := List.head_dropWhile_not isBlank hne
      rw [h _ (List.head_mem hne)] at hfirst
      cases hfirst
    exact List.dropWhile_eq_nil_iff.1 hnil
  · intro h c hc
    exact h c ((List.dropWhile_suffix isBlank).subset hc)

theorem trim_ne_empty_iff (s : String) : trim s ≠ "" ↔ Visible s := by
  rw [ne_eq, trim_eq_empty_iff]
  unfold Visible
  push Not
  simp only [Bool.not_eq_true]

theorem visible_append {s t : String} : Visible (s ++ t) ↔ Visible s ∨ Visible t := by
  unfold Visible
  rw [String.toList_append]
  simp only [List.mem_append, or_and_right, exists_or]

end Text

open Text (IsTrimmed IsName Visible)

/-! ## §2. Lists of names. -/

theorem isName_of_mem_cleanNames {n : String} {items : List String} (h : n ∈ cleanNames items) : IsName n := by
  obtain ⟨hmem, hne⟩ := List.mem_filter.1 h
  obtain ⟨item, -, rfl⟩ := List.mem_map.1 hmem
  exact ⟨of_decide_eq_true hne, Text.isTrimmed_trim item⟩

/-- Names are kept as they are. -/
theorem cleanNames_of_isName {items : List String} (h : ∀ n ∈ items, IsName n) : cleanNames items = items := by
  have htrim : items.map Text.trim = items := by
    conv_rhs => rw [← List.map_id items]
    exact List.map_congr_left fun n hn => Text.trim_of_isTrimmed (h n hn).trimmed
  unfold cleanNames
  rw [htrim, List.filter_eq_self]
  intro n hn
  exact decide_eq_true (h n hn).ne_empty

/-- However a value lists names, they are names. -/
theorem isName_of_splitNames {d : Datum} {names : List String} (h : splitNames? d = some names) {n : String}
    (hn : n ∈ names) : IsName n := by
  unfold splitNames? at h
  split at h
  · cases h
    cases hn
  · cases h
    exact isName_of_mem_cleanNames hn
  · obtain ⟨items, -, rfl⟩ := Option.map_eq_some_iff.1 h
    exact isName_of_mem_cleanNames hn

/-! ## §3. Patterns. -/

namespace Pattern

/-- The three lists of the pattern have names only. -/
structure ListsNames (p : Pattern) : Prop where
  entryPoints : ∀ n ∈ p.entryPoints, IsName n
  sanitizers : ∀ n ∈ p.sanitizers, IsName n
  sinks : ∀ n ∈ p.sinks, IsName n

/-- **Values make the pattern.** -/
def Built (p : Pattern) : Prop := ∃ name entryPoints sanitizers sinks, ofValues name entryPoints sanitizers sinks = .ok p

theorem ofValues_eq_ok_iff {name entryPoints sanitizers sinks : Datum} {p : Pattern} :
    ofValues name entryPoints sanitizers sinks = .ok p ↔
      ∃ n es ss ks, name = .text n ∧ splitNames? entryPoints = some es ∧ splitNames? sanitizers = some ss ∧
        splitNames? sinks = some ks ∧ p = build n es ss ks := by
  unfold ofValues
  split
  · split
    · rename_i es ss ks hes hss hks
      rw [hes, hss, hks]
      constructor
      · intro h
        cases h
        exact ⟨_, es, ss, ks, rfl, rfl, rfl, rfl, rfl⟩
      · rintro ⟨n, _, _, _, hn, hes, hss, hks, rfl⟩
        cases hn
        cases hes
        cases hss
        cases hks
        rfl
    · rename_i hnone
      refine ⟨nofun, ?_⟩
      rintro ⟨n, es, ss, ks, -, hes, hss, hks, -⟩
      exact absurd hks (hnone es ss ks hes hss)
  · rename_i hname
    refine ⟨nofun, ?_⟩
    rintro ⟨n, -, -, -, hn, -⟩
    exact absurd hn (hname n)

theorem Built.isTrimmed_name {p : Pattern} (h : p.Built) : IsTrimmed p.name := by
  obtain ⟨name, entryPoints, sanitizers, sinks, hp⟩ := h
  obtain ⟨n, es, ss, ks, -, -, -, -, rfl⟩ := ofValues_eq_ok_iff.1 hp
  exact Text.isTrimmed_trim n

theorem Built.listsNames {p : Pattern} (h : p.Built) : p.ListsNames := by
  obtain ⟨name, entryPoints, sanitizers, sinks, hp⟩ := h
  obtain ⟨n, es, ss, ks, -, hes, hss, hks, rfl⟩ := ofValues_eq_ok_iff.1 hp
  constructor
  · intro x hx
    exact isName_of_splitNames hes (OrderedSet.mem_ofList.1 hx)
  · intro x hx
    exact isName_of_splitNames hss (OrderedSet.mem_ofList.1 hx)
  · intro x hx
    exact isName_of_splitNames hks (OrderedSet.mem_ofList.1 hx)

end Pattern

/-! ## §4. Written values. -/

/-- Digits can be seen. -/
theorem visible_toString_nat (n : Nat) : Visible (toString n) := by
  obtain ⟨c, rest, hdigits⟩ := List.exists_cons_of_ne_nil (Nat.toDigits_ne_nil (n := n) (b := 10))
  have hc : c.isDigit = true := Nat.isDigit_of_mem_toDigits (by decide) (Nat.le_refl 10) (hdigits ▸ List.mem_cons_self)
  refine ⟨c, ?_, ?_⟩
  · show c ∈ (String.ofList (Nat.toDigits 10 n)).toList
    rw [String.toList_ofList, hdigits]
    exact List.mem_cons_self
  · unfold Char.isDigit at hc
    simp only [Bool.and_eq_true, decide_eq_true_eq, ge_iff_le, UInt32.le_iff_toNat_le] at hc
    have hlow : 48 ≤ c.toNat := hc.1
    have hhigh : c.toNat ≤ 57 := hc.2
    unfold Text.isBlank
    simp only [Bool.or_eq_false_iff, Bool.and_eq_false_iff, decide_eq_false_iff_not, beq_eq_false_iff_ne]
    omega

theorem visible_toString_int (n : Int) : Visible (toString n) := by
  cases n with
  | ofNat n => exact visible_toString_nat n
  | negSucc n => exact Text.visible_append.2 (.inr (visible_toString_nat (n + 1)))

theorem visible_positional (digits : String) (point : Int) : Visible (Binary64.positional digits point) := by
  have hzero : Visible "0." := ⟨'.', by decide, by decide⟩
  have hend : Visible ".0" := ⟨'.', by decide, by decide⟩
  have hpoint : Visible "." := ⟨'.', by decide, by decide⟩
  unfold Binary64.positional
  simp only
  split
  · simp only [Text.visible_append, hzero, true_or]
  · split
    · simp only [Text.visible_append, hend, or_true]
    · simp only [Text.visible_append, hpoint, or_true, true_or]

theorem visible_scientific (layout : Binary64.Layout) (digits : String) (exponent : Int) :
    Visible (Binary64.scientific layout digits exponent) := by
  have hmark : Visible "e" := ⟨'e', by decide, by decide⟩
  unfold Binary64.scientific
  simp only [Text.visible_append, hmark, or_true, true_or]

/-- A number has a point or an exponent, or it is a word. -/
theorem visible_format (x : Binary64) : Visible (x.format .standard) := by
  cases x with
  | undefined => exact ⟨'n', by decide, by decide⟩
  | infinite negative => exact Text.visible_append.2 (.inr ⟨'i', by decide, by decide⟩)
  | finite negative m q =>
    cases m with
    | zero =>
      have hzero : Visible "0.0" := ⟨'0', by decide, by decide⟩
      have hminus : Visible "-0.0" := ⟨'0', by decide, by decide⟩
      cases negative
      · exact hzero
      · exact hminus
    | succ m =>
      unfold Binary64.format
      refine Text.visible_append.2 (.inr ?_)
      split
      · exact visible_positional _ _
      · exact visible_scientific _ _ _

/-- A date has a dash between the year and the month. -/
theorem visible_shown (t : Timestamp) : Visible t.shown := by
  have hdash : Visible "-" := ⟨'-', by decide, by decide⟩
  unfold Timestamp.shown
  simp only
  split <;> simp only [Text.visible_append, hdash, or_true, true_or]

/-- A scalar that is no text is written with something to see. -/
theorem Scalar.visible_display {x : Scalar} (h : ∀ t, x ≠ .text t) : Visible x.display := by
  cases x with
  | null => exact ⟨'N', by decide, by decide⟩
  | bool b => cases b <;> exact ⟨'e', by decide, by decide⟩
  | int n => exact visible_toString_int n
  | real x => exact visible_format x
  | text t => exact absurd rfl (h t)
  | bytes b =>
    refine ⟨'b', ?_, by decide⟩
    show 'b' ∈ (Text.quotedBytes b).toList
    unfold Text.quotedBytes
    rw [String.toList_ofList]
    exact List.mem_cons_self
  | moment t => exact visible_shown t

theorem visible_setLiteral (members : List Scalar) : Visible (setLiteral members) := by
  have hbrace : Visible "\x7b" := ⟨'\x7b', by decide, by decide⟩
  unfold setLiteral
  split
  · exact ⟨'s', by decide, by decide⟩
  · simp only [Text.visible_append, hbrace, true_or]

theorem visible_tupleLiteral (items : List String) : Visible (tupleLiteral items) := by
  have hbracket : Visible "(" := ⟨'(', by decide, by decide⟩
  unfold tupleLiteral
  split <;> simp only [Text.visible_append, hbracket, true_or]

/-- **A value that is no text is never written as blanks.** -/
theorem Datum.visible_display {d : Datum} (h : ∀ t, d ≠ .text t) : Visible d.display := by
  have hbracket : Visible "[" := ⟨'[', by decide, by decide⟩
  have hbrace : Visible "\x7b" := ⟨'\x7b', by decide, by decide⟩
  cases d with
  | scalar x => exact Scalar.visible_display fun t hx => h t (congrArg Datum.scalar hx)
  | list items =>
    show Visible ("[" ++ _ ++ "]")
    simp only [Text.visible_append, hbracket, true_or]
  | tuple items => exact visible_tupleLiteral _
  | set members => exact visible_setLiteral members
  | map entries =>
    show Visible ("\x7b" ++ _ ++ "\x7d")
    simp only [Text.visible_append, hbrace, true_or]
  | shared kind label =>
    show Visible kind.dots
    cases kind <;> exact ⟨'.', by decide, by decide⟩

end TaintFlow
