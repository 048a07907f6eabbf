/-
  TaintFlow.OrderedSet
  ────────────────────
  Finite sets kept as strictly increasing lists.

  A set has one representation, so sets with the same members are equal
  (`OrderedSet.ext`), the laws of union hold as equations, and listing the members
  in order costs nothing.  `NameSet` is the set of texts, ordered by code points.
  Where the order takes different values for equal, a set has one of them, the first that was given;
  the laws about members are for orders that do not.
-/

namespace TaintFlow

/-- A finite set as the strictly increasing list of its members. -/
structure OrderedSet (α : Type) [Ord α] where
  toList : List α
  sorted : toList.Pairwise fun a b => compare a b = .lt
  deriving Repr

namespace OrderedSet

variable {α : Type} [Ord α]

instance [DecidableEq α] : DecidableEq (OrderedSet α) := fun s t =>
  decidable_of_iff (s.toList = t.toList) (by cases s; cases t; simp)

instance : Membership α (OrderedSet α) := ⟨fun s a => a ∈ s.toList⟩

theorem mem_def {a : α} {s : OrderedSet α} : a ∈ s ↔ a ∈ s.toList := Iff.rfl

instance [DecidableEq α] (a : α) (s : OrderedSet α) : Decidable (a ∈ s) :=
  inferInstanceAs (Decidable (a ∈ s.toList))

/-- The set without members. -/
def empty : OrderedSet α := ⟨[], .nil⟩

instance : EmptyCollection (OrderedSet α) := ⟨empty⟩
instance : Inhabited (OrderedSet α) := ⟨empty⟩

/-- The number of members. -/
def size (s : OrderedSet α) : Nat := s.toList.length

/-- Has the set no member? -/
def isEmpty (s : OrderedSet α) : Bool := s.toList.isEmpty

@[simp] theorem toList_empty : (empty : OrderedSet α).toList = [] := rfl
@[simp] theorem not_mem_empty (a : α) : a ∉ (empty : OrderedSet α) := by simp [mem_def]

/-! ## §1. Insertion. -/

/-- Put `x` at its place in an increasing list that may hold it already. -/
def insertSorted (x : α) : List α → List α
  | [] => [x]
  | y :: ys =>
    match compare x y with
    | .lt => x :: y :: ys
    | .eq => y :: ys
    | .gt => y :: insertSorted x ys

theorem eq_or_mem_of_mem_insertSorted {a x : α} {l : List α} (h : a ∈ insertSorted x l) : a = x ∨ a ∈ l := by
  induction l with
  | nil => simpa [insertSorted] using h
  | cons y ys ih =>
    simp only [insertSorted] at h
    split at h
    · simpa using h
    · exact .inr h
    · rcases List.mem_cons.1 h with rfl | h
      · simp
      · exact (ih h).imp_right (List.mem_cons_of_mem y)

variable [Std.TransOrd α]

theorem pairwise_insertSorted (x : α) {l : List α} (h : l.Pairwise fun a b => compare a b = .lt) :
    (insertSorted x l).Pairwise fun a b => compare a b = .lt := by
  induction l with
  | nil => simp [insertSorted]
  | cons y ys ih =>
    obtain ⟨hy, hys⟩ := List.pairwise_cons.1 h
    simp only [insertSorted]
    split
    · rename_i hxy
      refine List.pairwise_cons.2 ⟨fun z hz => ?_, h⟩
      rcases List.mem_cons.1 hz with rfl | hz
      · exact hxy
      · exact Std.TransCmp.lt_trans hxy (hy z hz)
    · exact h
    · rename_i hxy
      refine List.pairwise_cons.2 ⟨fun z hz => ?_, ih hys⟩
      rcases eq_or_mem_of_mem_insertSorted hz with rfl | hz
      · exact Std.OrientedCmp.lt_of_gt hxy
      · exact hy z hz

/-- The set with one more member. -/
def insert (x : α) (s : OrderedSet α) : OrderedSet α :=
  ⟨insertSorted x s.toList, pairwise_insertSorted x s.sorted⟩

/-- The set of the items of a list. -/
def ofList (l : List α) : OrderedSet α := l.foldl (fun s x => s.insert x) empty

/-- The members of either set. -/
def union (s t : OrderedSet α) : OrderedSet α := t.toList.foldl (fun s x => s.insert x) s

instance : Union (OrderedSet α) := ⟨union⟩

/-! ## §2. Members. -/

variable [Std.LawfulEqOrd α]

omit [Std.TransOrd α] in
theorem mem_insertSorted {a x : α} {l : List α} : a ∈ insertSorted x l ↔ a = x ∨ a ∈ l := by
  induction l with
  | nil => simp [insertSorted]
  | cons y ys ih =>
    simp only [insertSorted]
    split
    · simp
    · rename_i h
      have := Std.LawfulEqOrd.eq_of_compare h
      simp [this]
    · simp [ih, or_left_comm]

@[simp] theorem mem_insert {a x : α} {s : OrderedSet α} : a ∈ s.insert x ↔ a = x ∨ a ∈ s :=
  mem_insertSorted

theorem mem_foldl_insert {a : α} {l : List α} {s : OrderedSet α} :
    a ∈ l.foldl (fun s x => s.insert x) s ↔ a ∈ s ∨ a ∈ l := by
  induction l generalizing s with
  | nil => simp
  | cons x xs ih => simp [ih, or_left_comm, or_assoc]

@[simp] theorem mem_ofList {a : α} {l : List α} : a ∈ ofList l ↔ a ∈ l := by
  simp [ofList, mem_foldl_insert]

@[simp] theorem mem_union {a : α} {s t : OrderedSet α} : a ∈ s ∪ t ↔ a ∈ s ∨ a ∈ t :=
  mem_foldl_insert

/-! ## §3. One representation. -/

omit [Std.LawfulEqOrd α] in
theorem eq_of_sorted_of_mem_iff {l m : List α} (hl : l.Pairwise fun a b => compare a b = .lt)
    (hm : m.Pairwise fun a b => compare a b = .lt) (h : ∀ a, a ∈ l ↔ a ∈ m) : l = m := by
  induction l generalizing m with
  | nil => cases m with
    | nil => rfl
    | cons y ys => simpa using (h y).2
  | cons x xs ih =>
    cases m with
    | nil => simpa using (h x).1
    | cons y ys =>
      obtain ⟨hx, hxs⟩ := List.pairwise_cons.1 hl
      obtain ⟨hy, hys⟩ := List.pairwise_cons.1 hm
      have irrefl : ∀ a : α, compare a a ≠ .lt := fun a ha => by
        have := Std.OrientedCmp.gt_of_lt ha
        simp at this
      have asymm : ∀ a b : α, compare a b = .lt → compare b a = .lt → False := fun a b hab hba =>
        irrefl a (Std.TransCmp.lt_trans hab hba)
      have hxy : x = y := by
        have hxm := (h x).1 (by simp)
        have hyl := (h y).2 (by simp)
        rcases List.mem_cons.1 hxm with rfl | hxm
        · rfl
        · rcases List.mem_cons.1 hyl with rfl | hyl
          · rfl
          · exact (asymm _ _ (hx y hyl) (hy x hxm)).elim
      subst hxy
      congr 1
      refine ih hxs hys fun a => ⟨fun ha => ?_, fun ha => ?_⟩
      · rcases List.mem_cons.1 ((h a).1 (List.mem_cons_of_mem _ ha)) with rfl | h'
        · exact (irrefl _ (hx _ ha)).elim
        · exact h'
      · rcases List.mem_cons.1 ((h a).2 (List.mem_cons_of_mem _ ha)) with rfl | h'
        · exact (irrefl _ (hy _ ha)).elim
        · exact h'

omit [Std.LawfulEqOrd α] in
/-- Sets with the same members are equal. -/
@[ext] theorem ext {s t : OrderedSet α} (h : ∀ a, a ∈ s ↔ a ∈ t) : s = t := by
  cases s; cases t
  congr
  exact eq_of_sorted_of_mem_iff ‹_› ‹_› h

end OrderedSet

/-- A set of texts. -/
abbrev NameSet := OrderedSet String

end TaintFlow
