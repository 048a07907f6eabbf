/-
  TaintFlow.Tally
  ───────────────
  Counts by reason, in the order in which the reasons first came up.
-/
import TaintFlow.OrderedMap

namespace TaintFlow

/-- How often each reason came up. -/
structure Tally where
  counts : OrderedMap String Int
  deriving Repr, DecidableEq

namespace Tally

/-- No reason has come up. -/
def empty : Tally := ⟨OrderedMap.empty⟩

instance : Inhabited Tally := ⟨empty⟩
instance : EmptyCollection Tally := ⟨empty⟩

/-- The count of a reason; one that never came up counts zero. -/
def count (t : Tally) (reason : String) : Int := (t.counts.get? reason).getD 0

/-- Add to the count of a reason. -/
def add (t : Tally) (reason : String) (n : Int) : Tally := ⟨t.counts.put reason (t.count reason + n)⟩

/-- Count a reason once more. -/
def record (t : Tally) (reason : String) : Tally := t.add reason 1

/-- The sum of all counts. -/
def total (t : Tally) : Int := t.counts.entries.foldr (fun e n => e.2 + n) 0

/-- The reasons and their counts in the order of first appearance. -/
def toList (t : Tally) : List (String × Int) := t.counts.entries

/-- Add other counts, each under its reason with `label` in front. -/
def merge (t : Tally) (label : String) (other : List (String × Int)) : Tally :=
  other.foldl (fun t e => t.add (label ++ e.1) e.2) t

theorem eq_of_toList {t u : Tally} (h : t.toList = u.toList) : t = u := by
  obtain ⟨⟨entries, _⟩⟩ := t
  obtain ⟨⟨entries', _⟩⟩ := u
  obtain rfl : entries = entries' := h
  rfl

@[simp] theorem count_empty (reason : String) : empty.count reason = 0 := rfl

theorem count_add (t : Tally) (reason other : String) (n : Int) :
    (t.add reason n).count other = t.count other + if other = reason then n else 0 := by
  by_cases h : other = reason
  · subst h
    simp [add, count]
  · simp [add, count, OrderedMap.get?_put, h]

theorem count_record (t : Tally) (reason other : String) :
    (t.record reason).count other = t.count other + if other = reason then 1 else 0 :=
  count_add t reason other 1

/-- Recording reasons one after the other adds to each count how often the reason is among them. -/
theorem count_foldl_record (t : Tally) (reasons : List String) (reason : String) :
    (reasons.foldl record t).count reason = t.count reason + reasons.count reason := by
  induction reasons generalizing t with
  | nil => simp
  | cons r rest ih =>
    rw [List.foldl_cons, ih, count_record, List.count_cons]
    by_cases h : reason = r
    · subst h
      simp
      omega
    · have hne : r ≠ reason := fun heq => h heq.symm
      simp [h, hne]

/-- Setting one value changes the sum of all values by the difference. -/
theorem sum_put (reason : String) (n : Int) (l : List (String × Int)) :
    (Assoc.put reason ((Assoc.get? reason l).getD 0 + n) l).foldr (fun e m => e.2 + m) 0
      = l.foldr (fun e m => e.2 + m) 0 + n := by
  induction l with
  | nil => simp [Assoc.put, Assoc.get?]
  | cons e rest ih =>
    by_cases h : e.1 = reason
    · simp only [Assoc.put, Assoc.get?, h, if_true, Option.getD_some, List.foldr_cons]
      omega
    · simp only [Assoc.put, Assoc.get?, h, if_false, List.foldr_cons, ih]
      omega

theorem total_add (t : Tally) (reason : String) (n : Int) : (t.add reason n).total = t.total + n :=
  sum_put reason n t.counts.entries

/-- The sum of all counts grows with every reason that is recorded. -/
theorem total_foldl_record (t : Tally) (reasons : List String) :
    (reasons.foldl record t).total = t.total + reasons.length := by
  induction reasons generalizing t with
  | nil => simp
  | cons r rest ih =>
    have hone : (t.record r).total = t.total + 1 := total_add t r 1
    rw [List.foldl_cons, ih, hone, List.length_cons]
    omega

/-- A reason that has not come up before is listed behind all others. -/
theorem toList_add_of_notMem (t : Tally) {reason : String} (h : reason ∉ t.counts.keys) (n : Int) :
    (t.add reason n).toList = t.toList ++ [(reason, n)] := by
  have hcount : t.count reason = 0 := by
    show (Assoc.get? reason t.counts.entries).getD 0 = 0
    rw [Assoc.get?_eq_none_iff.2 h]
    rfl
  have hput := Assoc.put_append_of_notMem h (t.count reason + n) []
  rw [hcount, Int.zero_add, List.append_nil] at hput
  show Assoc.put reason (t.count reason + n) t.counts.entries = _
  rw [hcount, Int.zero_add, hput]
  rfl

/-- Counts of other reasons are added behind all others, each with the label in front. -/
theorem toList_merge (t : Tally) (label : String) {other : List (String × Int)} (hother : (Assoc.keys other).Nodup)
    (h : ∀ e ∈ other, label ++ e.1 ∉ t.counts.keys) :
    (t.merge label other).toList = t.toList ++ other.map fun e => (label ++ e.1, e.2) := by
  induction other generalizing t with
  | nil => simp [merge]
  | cons e rest ih =>
    obtain ⟨hfirst, hrest⟩ := List.nodup_cons.1 hother
    have hadd := t.toList_add_of_notMem (h e List.mem_cons_self) e.2
    have hkeys : (t.add (label ++ e.1) e.2).counts.keys = t.counts.keys ++ [label ++ e.1] := by
      show Assoc.keys (t.add (label ++ e.1) e.2).toList = Assoc.keys t.toList ++ [label ++ e.1]
      rw [hadd]
      simp [Assoc.keys]
    have hdisjoint : ∀ e' ∈ rest, label ++ e'.1 ∉ (t.add (label ++ e.1) e.2).counts.keys := by
      intro e' he' hmem
      rw [hkeys, List.mem_append, List.mem_singleton] at hmem
      rcases hmem with hmem | heq
      · exact h e' (List.mem_cons_of_mem e he') hmem
      · rw [String.append_right_inj] at heq
        exact hfirst (heq ▸ List.mem_map_of_mem he')
    show ((t.add (label ++ e.1) e.2).merge label rest).toList = _
    rw [ih _ hrest hdisjoint, hadd, List.map_cons, List.append_assoc]
    rfl

/-- Reasons that are not among the first ones of a tally are recorded among the others. -/
theorem toList_foldl_record_of_append {t u w : Tally} (hw : w.toList = t.toList ++ u.toList) {reasons : List String}
    (h : ∀ r ∈ reasons, r ∉ t.counts.keys) :
    (reasons.foldl record w).toList = t.toList ++ (reasons.foldl record u).toList := by
  induction reasons generalizing u w with
  | nil => exact hw
  | cons r rest ih =>
    have hr := h r List.mem_cons_self
    have hentries : w.counts.entries = t.counts.entries ++ u.counts.entries := hw
    refine ih ?_ fun r' hr' => h r' (List.mem_cons_of_mem r hr')
    show Assoc.put r ((Assoc.get? r w.counts.entries).getD 0 + 1) w.counts.entries
      = t.counts.entries ++ Assoc.put r ((Assoc.get? r u.counts.entries).getD 0 + 1) u.counts.entries
    rw [hentries, Assoc.get?_append_of_notMem hr, Assoc.put_append_of_notMem hr]

end Tally

end TaintFlow
