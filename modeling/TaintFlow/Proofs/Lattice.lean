/-
  TaintFlow.Proofs.Lattice
  ────────────────────────
  **Joining environments is taking a least upper bound.**

  An environment is below another if the other has all of its variables and each of them with at
  least the same marks.  Environments that are below each other are equal as mappings
  (`sameEntries_iff_le_le`); only the order of their variables may differ.

    • `le_join_left`, `le_join_right`, `join_le` — the join is above both sides, and below whatever
      is above both,
    • from these alone it is commutative, associative and idempotent as a mapping,
    • `weight_mono`, `weight_join_le` — the weight follows the order, and a join weighs at most what
      its two sides weigh together.
-/
import Mathlib.Order.Bounds.Basic
import TaintFlow.Proofs.Environment

namespace TaintFlow

/-- A union has at most as many members as its two sides together. -/
theorem OrderedSet.size_union_le {α : Type} [Ord α] [Std.TransOrd α] [Std.LawfulEqOrd α] [DecidableEq α]
    (s t : OrderedSet α) : (s ∪ t).size ≤ s.size + t.size := by
  rw [size_eq_card s, size_eq_card t]
  have hunion : ∀ a ∈ s ∪ t, a ∈ s.toList.toFinset ∪ t.toList.toFinset := by
    intro a ha
    rw [Finset.mem_union, List.mem_toFinset, List.mem_toFinset]
    exact mem_union.1 ha
  exact le_trans (size_le_card hunion) (Finset.card_union_le _ _)

namespace Env

variable {μ : Type} [Ord μ]

/-! ## §1. The order. -/

/-- The variables of the first environment are among those of the second, with their marks. -/
instance : LE (Env μ) := ⟨fun a b => a.names ⊆ b.names ∧ a.Below b⟩

instance : Preorder (Env μ) where
  le_refl a := ⟨List.Subset.refl _, Below.refl a⟩
  le_trans _ _ _ hab hbc := ⟨List.Subset.trans hab.1 hbc.1, hab.2.trans hbc.2⟩

section Join

variable [Std.TransOrd μ] [Std.LawfulEqOrd μ]

theorem le_join_left (a b : Env μ) : a ≤ a.join b :=
  ⟨fun _ hx => mem_names_join.2 (.inl hx), fun _ _ hm => mem_taintOf_join.2 (.inl hm)⟩

theorem le_join_right (a b : Env μ) : b ≤ a.join b :=
  ⟨fun _ hx => mem_names_join.2 (.inr hx), fun _ _ hm => mem_taintOf_join.2 (.inr hm)⟩

theorem join_le {a b c : Env μ} (ha : a ≤ c) (hb : b ≤ c) : a.join b ≤ c := by
  constructor
  · intro x hx
    rcases mem_names_join.1 hx with hx | hx
    · exact ha.1 hx
    · exact hb.1 hx
  · intro x m hm
    rcases mem_taintOf_join.1 hm with hm | hm
    · exact ha.2 x m hm
    · exact hb.2 x m hm

/-- **The join is the least environment above both sides.** -/
theorem isLUB_join (a b : Env μ) : IsLUB {a, b} (a.join b) := by
  constructor
  · rintro e (rfl | rfl)
    · exact le_join_left _ _
    · exact le_join_right _ _
  · intro c hc
    exact join_le (hc (.inl rfl)) (hc (.inr rfl))

end Join

/-! ## §2. Equality as mappings. -/

theorem get?_eq_some_iff {e : Env μ} {x : String} {t : OrderedSet μ} :
    e.bindings.get? x = some t ↔ x ∈ e.names ∧ e.taintOf x = t := by
  rw [mem_names_iff]
  unfold contains OrderedMap.contains taintOf
  cases e.bindings.get? x <;> simp

/-- Where two environments have equally many variables, inclusion of the variables goes both ways. -/
theorem names_subset_of_size_eq {a b : Env μ} (h : a.names ⊆ b.names) (hsize : a.size = b.size) :
    b.names ⊆ a.names := by
  have hlength : b.names.length ≤ a.names.length := by
    rw [length_names, length_names, hsize]
  exact ((List.subperm_of_subset a.nodup_names h).perm_of_length_le hlength).symm.subset

theorem size_eq_of_names_subset {a b : Env μ} (hab : a.names ⊆ b.names) (hba : b.names ⊆ a.names) :
    a.size = b.size := by
  have hperm : a.names.Perm b.names :=
    (List.perm_ext_iff_of_nodup a.nodup_names b.nodup_names).2 fun x => ⟨@hab x, @hba x⟩
  rw [← length_names, ← length_names, hperm.length_eq]

variable [DecidableEq μ]

theorem sameEntries_iff {a b : Env μ} : a.bindings.sameEntries b.bindings = true ↔
    a.size = b.size ∧ ∀ x ∈ a.names, x ∈ b.names ∧ b.taintOf x = a.taintOf x := by
  unfold OrderedMap.sameEntries
  rw [entries_eq_map_names]
  simp only [Bool.and_eq_true, beq_iff_eq, List.all_map, List.all_eq_true, Function.comp_apply, get?_eq_some_iff]
  rfl

variable [Std.TransOrd μ]

/-- **Environments that are below each other are equal as mappings**, and only they are. -/
theorem sameEntries_iff_le_le {a b : Env μ} : a.bindings.sameEntries b.bindings = true ↔ a ≤ b ∧ b ≤ a := by
  rw [sameEntries_iff]
  constructor
  · rintro ⟨hsize, hall⟩
    have hab : a.names ⊆ b.names := fun x hx => (hall x hx).1
    have hba : b.names ⊆ a.names := names_subset_of_size_eq hab hsize
    refine ⟨⟨hab, fun x m hm => ?_⟩, ⟨hba, fun x m hm => ?_⟩⟩
    · rw [(hall x (mem_names_of_mem_taintOf hm)).2]
      exact hm
    · rw [← (hall x (hba (mem_names_of_mem_taintOf hm))).2]
      exact hm
  · rintro ⟨hab, hba⟩
    refine ⟨size_eq_of_names_subset hab.1 hba.1, fun x hx => ⟨hab.1 hx, ?_⟩⟩
    exact OrderedSet.ext fun m => ⟨hba.2 x m, hab.2 x m⟩

section Laws

variable [Std.LawfulEqOrd μ]

theorem join_comm (a b : Env μ) : (a.join b).bindings.sameEntries (b.join a).bindings = true := by
  have hswap : ∀ c d : Env μ, c.join d ≤ d.join c := fun c d => join_le (le_join_right d c) (le_join_left d c)
  exact sameEntries_iff_le_le.2 ⟨hswap a b, hswap b a⟩

theorem join_assoc (a b c : Env μ) :
    ((a.join b).join c).bindings.sameEntries (a.join (b.join c)).bindings = true := by
  rw [sameEntries_iff_le_le]
  constructor
  · refine join_le (join_le (le_join_left _ _) ?_) ?_
    · exact le_trans (le_join_left b c) (le_join_right _ _)
    · exact le_trans (le_join_right b c) (le_join_right _ _)
  · refine join_le ?_ (join_le ?_ (le_join_right _ _))
    · exact le_trans (le_join_left a b) (le_join_left _ _)
    · exact le_trans (le_join_right a b) (le_join_left _ _)

theorem join_self (a : Env μ) : (a.join a).bindings.sameEntries a.bindings = true :=
  sameEntries_iff_le_le.2 ⟨join_le le_rfl le_rfl, le_join_left a a⟩

end Laws

/-! ## §3. The weight. -/

/-- **An environment that is above another weighs at least as much.** -/
theorem weight_mono : Monotone (weight : Env μ → Nat) := by
  intro a b hab
  rw [weight_eq_sum (e := a) (S := b.names.toFinset) fun x hx => List.mem_toFinset.2 (hab.1 hx),
    weight_eq_sum (e := b) (S := b.names.toFinset) fun x hx => List.mem_toFinset.2 hx]
  exact Finset.sum_le_sum fun x _ => OrderedSet.size_le_of_forall_mem (hab.2 x)

variable [Std.LawfulEqOrd μ]

/-- **A join weighs at most what its two sides weigh together.** -/
theorem weight_join_le (a b : Env μ) : (a.join b).weight ≤ a.weight + b.weight := by
  -- all three weights are sums over the variables of the join
  let S := (a.join b).names.toFinset
  have hsum : ∀ e : Env μ, e ≤ a.join b → e.weight = ∑ x ∈ S, (e.taintOf x).size :=
    fun e he => weight_eq_sum fun x hx => List.mem_toFinset.2 (he.1 hx)
  calc (a.join b).weight = ∑ x ∈ S, (a.taintOf x ∪ b.taintOf x).size := by
        rw [hsum _ le_rfl]
        exact Finset.sum_congr rfl fun x _ => by rw [taintOf_join]
    _ ≤ ∑ x ∈ S, ((a.taintOf x).size + (b.taintOf x).size) :=
        Finset.sum_le_sum fun x _ => OrderedSet.size_union_le _ _
    _ = a.weight + b.weight := by
        rw [Finset.sum_add_distrib, ← hsum a (le_join_left a b), ← hsum b (le_join_right a b)]

/-! ## §4. All laws together. -/

/-- **The laws of the join**: it is the least upper bound of its sides and, on mappings, associative,
commutative and idempotent; it lists the variables of the second side first, then those that only the
first side has; and it weighs at most what its sides do, by a weight that follows the order. -/
theorem join_is_least_upper_bound (a b c : Env μ) :
    IsLUB {a, b} (a.join b) ∧
    ((a.join b).join c).bindings.sameEntries (a.join (b.join c)).bindings = true ∧
    (a.join b).bindings.sameEntries (b.join a).bindings = true ∧
    (a.join a).bindings.sameEntries a.bindings = true ∧
    (a.join b).names = b.names ++ a.names.filter (· ∉ b.names) ∧ (a.join b).names.Nodup ∧
    (a.join b).weight ≤ a.weight + b.weight ∧ Monotone (weight : Env μ → Nat) :=
  ⟨isLUB_join a b, join_assoc a b c, join_comm a b, join_self a, names_join a b, nodup_names _, weight_join_le a b,
    weight_mono⟩

/-- An environment behind a first branch. -/
def afterThen : Env String := ofList [("id", .ofList ["SQL"]), ("name", .ofList ["SQL", "XSS"])]

/-- An environment behind the other branch, which has a variable in common with the first. -/
def afterElse : Env String := ofList [("name", .ofList ["XSS"]), ("page", ∅)]

/-- The two orders of a join list the variables differently and are equal as mappings all the same. -/
theorem afterThen_join_afterElse :
    (afterThen.join afterElse).names = ["name", "page", "id"] ∧
    (afterElse.join afterThen).names = ["id", "name", "page"] ∧
    (afterThen.join afterElse).bindings.sameEntries (afterElse.join afterThen).bindings = true ∧
    IsLUB {afterThen, afterElse} (afterThen.join afterElse) ∧
    (afterThen.join afterElse).weight = 3 ∧ afterThen.weight + afterElse.weight = 4 := by
  obtain ⟨hlub, -, hcomm, -, -, -, -, -⟩ := join_is_least_upper_bound afterThen afterElse afterThen
  exact ⟨by decide, by decide, hcomm, hlub, by decide, by decide⟩

end Env

end TaintFlow
