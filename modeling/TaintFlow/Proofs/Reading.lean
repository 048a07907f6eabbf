/-
  TaintFlow.Proofs.Reading
  ────────────────────────
  **What the values of data files are like.**

  The reader of data files takes one lexeme at a time and keeps the lists and mappings that are still
  open.  Whatever text it is given, there is nothing in them but what a data file can hold, and so
  nothing else is in the value in the end:

    • `Datum.isJson` — the values that a data file can hold: scalars whose integers have no more digits
      than the reader takes, lists, and mappings with texts for keys,
    • `Datum.writable_of_isJson` — each of them has a text,
    • `decimalNumber_lt` — a number with so many digits is below that power of ten,
    • `isJson_of_lexeme`, `State.Plain`, `step_plain`, `plain_of_foldlM` — lexemes, one step of the
      reader, and all of its steps,
    • `isJson_of_read` — so is every value that is read.
-/
import Mathlib.Data.List.TakeDrop
import TaintFlow.Data.Display
import TaintFlow.Json.Reader
import TaintFlow.OrderedMap

namespace TaintFlow

/-! ## §1. Values of data files. -/

/-- Can a data file hold the scalar?  The reader refuses integers with too many digits. -/
def Scalar.isJson : Scalar → Bool
  | .bytes _ | .moment _ => false
  | s => Datum.scalarWritable s

/-- Is the scalar a text? -/
def Scalar.isText : Scalar → Bool
  | .text _ => true
  | _ => false

namespace Datum

mutual

/-- Can a data file hold the value?  It has scalars, lists, and mappings with texts for keys. -/
def isJson : Datum → Bool
  | .scalar s => s.isJson
  | .list items => allJson items
  | .map entries => entriesJson entries
  | .tuple _ | .set _ | .shared .. => false

/-- Can a data file hold all of the values? -/
def allJson : List Datum → Bool
  | [] => true
  | d :: ds => isJson d && allJson ds

/-- Can a data file hold all of the entries? -/
def entriesJson : List (Scalar × Datum) → Bool
  | [] => true
  | (k, d) :: rest => k.isText && isJson d && entriesJson rest

end

theorem isJson_list_iff {items : List Datum} : (Datum.list items).isJson = true ↔ ∀ d ∈ items, d.isJson = true := by
  rw [isJson]
  induction items with
  | nil => exact ⟨fun _ => List.forall_mem_nil _, fun _ => rfl⟩
  | cons d rest ih => rw [allJson, Bool.and_eq_true, List.forall_mem_cons, ih]

theorem isJson_map_iff {entries : List (Scalar × Datum)} :
    (Datum.map entries).isJson = true ↔ ∀ e ∈ entries, e.1.isText = true ∧ e.2.isJson = true := by
  rw [isJson]
  induction entries with
  | nil => exact ⟨fun _ => List.forall_mem_nil _, fun _ => rfl⟩
  | cons e rest ih =>
    obtain ⟨key, value⟩ := e
    rw [entriesJson, Bool.and_eq_true, Bool.and_eq_true, List.forall_mem_cons, ih]

theorem isJson_of_mem {items : List Datum} (h : (Datum.list items).isJson = true) {d : Datum} (hd : d ∈ items) :
    d.isJson = true :=
  isJson_list_iff.1 h d hd

/-- The fields of a value from a data file are such values again. -/
theorem isJson_field {d : Datum} (h : d.isJson = true) (name : String) : (d.field name).isJson = true := by
  cases d with
  | map entries =>
    show ((Assoc.get? (Scalar.text name) entries).getD null).isJson = true
    cases hvalue : Assoc.get? (Scalar.text name) entries with
    | none => rfl
    | some value => exact (isJson_map_iff.1 h _ (Assoc.mem_of_get? hvalue)).2
  | _ => rfl

theorem isJson_put {entries : List (Scalar × Datum)} (h : (Datum.map entries).isJson = true) (name : String)
    {value : Datum} (hvalue : value.isJson = true) :
    (Datum.map (Assoc.put (.text name) value entries)).isJson = true := by
  rw [isJson_map_iff]
  intro e he
  rcases Assoc.eq_or_mem_of_mem_put he with rfl | hold
  · exact ⟨rfl, hvalue⟩
  · exact isJson_map_iff.1 h e hold

theorem scalarWritable_of_isJson {s : Scalar} (h : s.isJson = true) : scalarWritable s = true := by
  cases s with
  | int n => exact h
  | _ => rfl

theorem scalarWritable_of_isText {s : Scalar} (h : s.isText = true) : scalarWritable s = true := by
  cases s with
  | text value => rfl
  | _ => cases h

mutual

/-- **Whatever a data file can hold has a text.** -/
theorem writable_of_isJson : (d : Datum) → d.isJson = true → d.writable = true
  | .scalar _, h => by
    rw [isJson] at h
    rw [writable]
    exact scalarWritable_of_isJson h
  | .list items, h => by
    rw [isJson] at h
    rw [writable]
    exact allWritable_of_allJson items h
  | .map entries, h => by
    rw [isJson] at h
    rw [writable]
    exact entriesWritable_of_entriesJson entries h
  | .tuple _, h | .set _, h | .shared .., h => by
    rw [isJson] at h
    cases h

theorem allWritable_of_allJson : (ds : List Datum) → allJson ds = true → allWritable ds = true
  | [], _ => rfl
  | d :: ds, h => by
    rw [allJson, Bool.and_eq_true] at h
    rw [allWritable, writable_of_isJson d h.1, allWritable_of_allJson ds h.2]
    rfl

theorem entriesWritable_of_entriesJson : (entries : List (Scalar × Datum)) → entriesJson entries = true →
    entriesWritable entries = true
  | [], _ => rfl
  | (k, d) :: rest, h => by
    rw [entriesJson, Bool.and_eq_true, Bool.and_eq_true] at h
    rw [entriesWritable, scalarWritable_of_isText h.1.1, writable_of_isJson d h.1.2,
      entriesWritable_of_entriesJson rest h.2]
    rfl

end

end Datum

namespace Json

open Numeral

/-! ## §2. Lexemes. -/

/-- The value of a digit is below ten. -/
theorem digit_lt {c : Char} (h : c.isDigit = true) : c.toNat - 0x30 < 10 := by
  have hupper : c.toNat ≤ 57 := by
    simp only [Char.isDigit, Bool.and_eq_true, decide_eq_true_eq] at h
    exact h.2
  omega

/-- **A number with so many digits is below that power of ten.** -/
theorem decimalNumber_lt {cs : List Char} (h : ∀ c ∈ cs, c.isDigit = true) :
    decimalNumber cs < Nat.pow 10 cs.length := by
  -- each digit makes the bound on the number so far ten times as great
  have hfrom : ∀ (l : List Char) (n bound : Nat), (∀ c ∈ l, c.isDigit = true) → n < bound →
      l.foldl (fun n c => 10 * n + (c.toNat - 0x30)) n < bound * Nat.pow 10 l.length := by
    intro l
    induction l with
    | nil => exact fun n bound _ hn => by simpa using hn
    | cons c rest ih =>
      intro n bound hl hn
      obtain ⟨hc, hrest⟩ := List.forall_mem_cons.1 hl
      have hdigit := digit_lt hc
      have hpower : Nat.pow 10 (c :: rest).length = 10 * Nat.pow 10 rest.length := Nat.mul_comm _ _
      rw [hpower, ← Nat.mul_assoc]
      exact ih (10 * n + (c.toNat - 0x30)) (bound * 10) hrest (by omega)
  have hwhole := hfrom cs 0 1 h Nat.one_pos
  rw [Nat.one_mul] at hwhole
  exact hwhole

theorem isDigit_of_mem_spanDigits {cs : List Char} {c : Char} (h : c ∈ (spanDigits cs).1) : c.isDigit = true := by
  unfold spanDigits at h
  rw [List.span_eq_takeWhile_dropWhile] at h
  exact List.all_eq_true.1 List.all_takeWhile c h

theorem isDigit_of_mem_spanWhole {cs : List Char} {c : Char} (h : c ∈ (spanWhole cs).1) : c.isDigit = true := by
  unfold spanWhole at h
  split at h
  · rw [List.mem_singleton.1 h]
    rfl
  · exact isDigit_of_mem_spanDigits h

/-- An integer of a data file has a text. -/
theorem isJson_of_digits {whole : List Char} (hdigits : ∀ c ∈ whole, c.isDigit = true)
    (hlength : whole.length ≤ maxDigits) (negative : Bool) :
    (Scalar.int (if negative then -(decimalNumber whole : Int) else decimalNumber whole)).isJson = true := by
  have habs : (if negative then -(decimalNumber whole : Int) else decimalNumber whole).natAbs = decimalNumber whole := by
    cases negative <;> simp
  simp only [Scalar.isJson, Datum.scalarWritable, decide_eq_true_eq, habs, Nat.pow_eq]
  -- the power is not to be worked out
  generalize maxDigits = limit at hlength ⊢
  exact Nat.lt_of_lt_of_le (decimalNumber_lt hdigits) (Nat.pow_le_pow_right (by decide) hlength)

theorem isJson_of_scanNumber {negative : Bool} {cs : List Char} {s : Scalar}
    (h : (scanNumber negative cs).1 = .value s) : s.isJson = true := by
  have hdigits : ∀ c ∈ (spanWhole cs).1, c.isDigit = true := fun c hc => isDigit_of_mem_spanWhole hc
  unfold scanNumber at h
  split at h
  · cases h
  · rename_i whole rest hspan hwhole
    rw [hwhole] at hdigits
    dsimp only at h
    split at h
    · split at h
      · cases h
      · rename_i hlength
        rw [← Token.value.inj h]
        exact isJson_of_digits hdigits (Nat.le_of_not_lt hlength) negative
    · rw [← Token.value.inj h]
      rfl

/-- **Every scalar of a text is one that a data file can hold.** -/
theorem isJson_of_lexeme {offset : Nat} {c : Char} {rest : List Char} {s : Scalar}
    (h : (lexeme offset c rest).1 = .value s) : s.isJson = true := by
  have hwords : ∀ w ∈ words, w.2.isJson = true := by
    intro w hw
    simp only [words, List.mem_cons, List.not_mem_nil, or_false] at hw
    rcases hw with rfl | rfl | rfl | rfl | rfl | rfl <;> rfl
  unfold lexeme at h
  split at h
  · cases h
  · cases h
  · cases h
  · cases h
  · cases h
  · cases h
  · split at h
    · rw [← Token.value.inj h]
      rfl
    · cases h
  · split at h
    · rename_i word scalar hfind
      rw [← Token.value.inj h]
      exact hwords _ (List.mem_of_find?_eq_some hfind)
    · dsimp only at h
      split at h
      · exact isJson_of_scanNumber h
      · exact isJson_of_scanNumber h

theorem isJson_of_mem_scan {offset : Nat} {cs : List Char} {t : Placed} (ht : t ∈ scan offset cs) {s : Scalar}
    (hs : t.token = .value s) : s.isJson = true := by
  induction offset, cs using scan.induct with
  | case1 offset =>
    rw [scan] at ht
    cases ht
  | case2 offset c rest hspace ih =>
    rw [scan, if_pos hspace] at ht
    exact ih ht
  | case3 offset c rest hspace token more hlexeme ih =>
    rw [scan, if_neg hspace, hlexeme] at ht
    rcases List.mem_cons.1 ht with rfl | ht
    · have htoken : (lexeme offset c rest).1 = .value s := by
        rw [hlexeme]
        exact hs
      exact isJson_of_lexeme htoken
    · exact ih ht

/-! ## §3. The reader. -/

/-- What is open has nothing in it but what a data file can hold. -/
def Frame.isPlain : Frame → Bool
  | .items newest => (Datum.list newest).isJson
  | .entries done | .entry done _ => (Datum.map done).isJson

/-- There is nothing but what a data file can hold in a state of the reader. -/
structure State.Plain (s : State) : Prop where
  stack : ∀ f ∈ s.stack, f.isPlain = true
  result : ∀ d, s.expects = .nothing d → d.isJson = true

theorem State.deliver_plain {d : Datum} (hd : d.isJson = true) {stack : List Frame}
    (hstack : ∀ f ∈ stack, f.isPlain = true) : (State.deliver d stack).Plain := by
  cases stack with
  | nil =>
    refine ⟨hstack, fun d' h => ?_⟩
    rw [← Expectation.nothing.inj h]
    exact hd
  | cons f rest =>
    obtain ⟨hf, hrest⟩ := List.forall_mem_cons.1 hstack
    cases f with
    | items newest =>
      refine ⟨List.forall_mem_cons.2 ⟨?_, hrest⟩, nofun⟩
      exact Datum.isJson_list_iff.2 (List.forall_mem_cons.2 ⟨hd, Datum.isJson_list_iff.1 hf⟩)
    | entry done name => exact ⟨List.forall_mem_cons.2 ⟨Datum.isJson_put hf name hd, hrest⟩, nofun⟩
    | entries done => exact ⟨hstack, nofun⟩

theorem State.enter_plain {limit : Nat} {frame : Frame} (hframe : frame.isPlain = true) {expects : Expectation}
    (hexpects : ∀ d, expects ≠ .nothing d) {stack : List Frame} (hstack : ∀ f ∈ stack, f.isPlain = true) {s : State}
    (h : State.enter limit frame expects stack = .ok s) : s.Plain := by
  unfold State.enter at h
  split at h
  · rw [← Except.ok.inj h]
    exact ⟨List.forall_mem_cons.2 ⟨hframe, hstack⟩, fun d hd => absurd hd (hexpects d)⟩
  · cases h

section Step

variable {limit : Nat} {stack : List Frame} {t : Placed} {s : State}

theorem State.onValue_plain (ht : ∀ v, t.token = .value v → v.isJson = true) (hstack : ∀ f ∈ stack, f.isPlain = true)
    (h : State.onValue limit stack t = .ok s) : s.Plain := by
  unfold State.onValue at h
  split at h
  · rename_i v hv
    rw [← Except.ok.inj h]
    refine State.deliver_plain ?_ hstack
    rw [Datum.isJson]
    exact ht v hv
  · exact State.enter_plain rfl (by nofun) hstack h
  · exact State.enter_plain rfl (by nofun) hstack h
  · cases h
  · cases h
  · cases h

theorem State.onName_plain (hstack : ∀ f ∈ stack, f.isPlain = true) (h : State.onName stack t = .ok s) : s.Plain := by
  unfold State.onName at h
  split at h
  · obtain ⟨hf, hrest⟩ := List.forall_mem_cons.1 hstack
    rw [← Except.ok.inj h]
    exact ⟨List.forall_mem_cons.2 ⟨hf, hrest⟩, nofun⟩
  · cases h
  · cases h

theorem State.onSeparator_plain (hstack : ∀ f ∈ stack, f.isPlain = true) (h : State.onSeparator stack t = .ok s) :
    s.Plain := by
  unfold State.onSeparator at h
  split at h
  · rw [← Except.ok.inj h]
    exact ⟨hstack, nofun⟩
  · rw [← Except.ok.inj h]
    exact ⟨hstack, nofun⟩
  · rename_i newest rest _
    obtain ⟨hf, hrest⟩ := List.forall_mem_cons.1 hstack
    rw [← Except.ok.inj h]
    refine State.deliver_plain (Datum.isJson_list_iff.2 fun d hd => ?_) hrest
    exact Datum.isJson_of_mem hf (List.mem_reverse.1 hd)
  · obtain ⟨hf, hrest⟩ := List.forall_mem_cons.1 hstack
    rw [← Except.ok.inj h]
    exact State.deliver_plain hf hrest
  · cases h

/-- **One lexeme** brings in nothing but what a data file can hold. -/
theorem step_plain {before : State} (hbefore : before.Plain) (ht : ∀ v, t.token = .value v → v.isJson = true)
    (h : step limit before t = .ok s) : s.Plain := by
  have hstack := hbefore.stack
  unfold step at h
  split at h
  · exact State.onValue_plain ht hstack h
  · split at h
    · rename_i f rest _ heq
      rw [← Except.ok.inj h]
      exact State.deliver_plain rfl fun f hf => hstack f (heq ▸ List.mem_cons_of_mem _ hf)
    · exact State.onValue_plain ht hstack h
  · exact State.onName_plain hstack h
  · split at h
    · rename_i f rest _ heq
      rw [← Except.ok.inj h]
      exact State.deliver_plain rfl fun f hf => hstack f (heq ▸ List.mem_cons_of_mem _ hf)
    · exact State.onName_plain hstack h
  · split at h
    · rw [← Except.ok.inj h]
      exact ⟨hstack, nofun⟩
    · cases h
  · exact State.onSeparator_plain hstack h
  · cases h

end Step

/-- **All lexemes**, one after the other. -/
theorem plain_of_foldlM {limit : Nat} {ts : List Placed} (hts : ∀ t ∈ ts, ∀ v, t.token = .value v → v.isJson = true)
    {before s : State} (hbefore : before.Plain) (h : ts.foldlM (step limit) before = .ok s) : s.Plain := by
  induction ts generalizing before with
  | nil =>
    rw [← Except.ok.inj h]
    exact hbefore
  | cons t rest ih =>
    obtain ⟨ht, hrest⟩ := List.forall_mem_cons.1 hts
    rw [List.foldlM_cons] at h
    cases hstep : step limit before t with
    | error e =>
      rw [hstep] at h
      cases h
    | ok next =>
      rw [hstep] at h
      exact ih hrest (step_plain hbefore ht hstep) h

/-- **The value of a text is one that a data file can hold.** -/
theorem isJson_of_read {limit : Nat} {text : String} {d : Datum} (h : read limit text = .ok d) : d.isJson = true := by
  have hchars : readChars limit text.toList = .ok d := by
    unfold read at h
    split at h
    · rename_i d' hd'
      rw [hd', Except.ok.inj h]
    · cases h
    · cases h
    · cases h
  unfold readChars at hchars
  split at hchars
  · cases hchars
  · split at hchars
    · cases hchars
    · rename_i s hs
      have hstart : State.start.Plain := ⟨List.forall_mem_nil _, nofun⟩
      have hplain := plain_of_foldlM (fun t ht v hv => isJson_of_mem_scan ht hv) hstart hs
      -- only a reader that expects nothing more has a value
      refine hplain.result d ?_
      unfold finish at hchars
      cases hexpects : s.expects with
      | nothing result =>
        rw [hexpects] at hchars
        rw [Except.ok.inj hchars]
      | _ =>
        rw [hexpects] at hchars
        cases hchars

end Json

end TaintFlow
