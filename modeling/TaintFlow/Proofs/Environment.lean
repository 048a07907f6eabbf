/-
  TaintFlow.Proofs.Environment
  ────────────────────────────
  **The laws of environments.**

  An environment is seen through two views: `names`, the registered variables in order, and
  `taintOf`, the marks of each variable.  Together they determine it (`ext_of_views`).

    • what `assign`, `declare` and `join` do to either view,
    • `Env.Below`, the pointwise inclusion of taints, and `join` as its upper bound,
    • the weight as a sum over any set that holds the registered variables: it is at most
      the number of variables times the number of marks (`weight_le_mul`), and an
      environment that is above another without weighing more has the same taints
      (`taintOf_eq_of_weight_le`).
-/
import Mathlib.Algebra.Order.BigOperators.Group.Finset
import TaintFlow.Analysis.Env

namespace TaintFlow

/-! ## §1. Unions and sizes of sets. -/

namespace OrderedSet

variable {α : Type} [Ord α]

@[simp] theorem not_mem_emptyc (a : α) : a ∉ (∅ : OrderedSet α) := not_mem_empty a

@[simp] theorem size_emptyc : (∅ : OrderedSet α).size = 0 := rfl

variable [Std.TransOrd α]

section Union

variable [Std.LawfulEqOrd α]

@[simp] theorem union_self (s : OrderedSet α) : s ∪ s = s := OrderedSet.ext fun a => by rw [mem_union, or_self]

@[simp] theorem union_empty (s : OrderedSet α) : s ∪ ∅ = s := OrderedSet.ext fun a => by simp

@[simp] theorem empty_union (s : OrderedSet α) : ∅ ∪ s = s := OrderedSet.ext fun a => by simp

end Union

theorem nodup_toList (s : OrderedSet α) : s.toList.Nodup := by
  refine s.sorted.imp fun {a b} h hab => ?_
  rw [hab, Std.ReflOrd.compare_self] at h
  exact absurd h (by decide)

variable [DecidableEq α]

/-- The size of a set is the number of its members. -/
theorem size_eq_card (s : OrderedSet α) : s.size = s.toList.toFinset.card :=
  (List.toFinset_card_of_nodup s.nodup_toList).symm

theorem size_le_card {s : OrderedSet α} {S : Finset α} (h : ∀ a ∈ s, a ∈ S) : s.size ≤ S.card := by
  rw [size_eq_card]
  exact Finset.card_le_card fun a ha => h a (List.mem_toFinset.1 ha)

theorem size_le_of_forall_mem {s t : OrderedSet α} (h : ∀ a ∈ s, a ∈ t) : s.size ≤ t.size := by
  rw [size_eq_card t]
  exact size_le_card fun a ha => List.mem_toFinset.2 (h a ha)

/-- A set with at least as many members as one that includes it is that one. -/
theorem eq_of_forall_mem_of_size_le {s t : OrderedSet α} (h : ∀ a ∈ s, a ∈ t) (hsize : t.size ≤ s.size) :
    s = t := by
  rw [size_eq_card, size_eq_card] at hsize
  have hsub : s.toList.toFinset ⊆ t.toList.toFinset := fun a ha =>
    List.mem_toFinset.2 (h a (List.mem_toFinset.1 ha))
  have heq := Finset.eq_of_subset_of_card_le hsub hsize
  refine OrderedSet.ext fun a => ?_
  rw [mem_def, mem_def, ← List.mem_toFinset, ← List.mem_toFinset, heq]

end OrderedSet

/-! ## §2. Pairs with distinct keys. -/

namespace Assoc

variable {κ ν : Type} [DecidableEq κ]

/-- The value of a key that is not the first one is found behind the first pair. -/
theorem get?_cons_of_ne {key k : κ} (h : k ≠ key) (v : ν) (l : List (κ × ν)) :
    get? key ((k, v) :: l) = get? key l := by
  simp [get?, h]

/-- Pairs with distinct keys are their keys with the values that look-up gives. -/
theorem eq_map_keys (d : ν) {l : List (κ × ν)} (h : (keys l).Nodup) :
    l = (keys l).map fun k => (k, (get? k l).getD d) := by
  induction l with
  | nil => rfl
  | cons e rest ih =>
    obtain ⟨k, v⟩ := e
    obtain ⟨hk, hrest⟩ := List.nodup_cons.1 (show (k :: keys rest).Nodup from h)
    have htail : (keys rest).map (fun j => (j, (get? j ((k, v) :: rest)).getD d))
        = (keys rest).map fun j => (j, (get? j rest).getD d) := by
      refine List.map_congr_left fun j hj => ?_
      have hkj : k ≠ j := fun hkj => hk (hkj ▸ hj)
      rw [get?_cons_of_ne hkj]
    show (k, v) :: rest = (k, (get? k ((k, v) :: rest)).getD d) :: (keys rest).map _
    rw [htail, ← ih hrest]
    simp [get?]

end Assoc

namespace Env

variable {μ : Type} [Ord μ]

/-! ## §3. The two views. -/

theorem mem_names_iff {e : Env μ} {x : String} : x ∈ e.names ↔ e.contains x = true := by
  have h : Assoc.get? x e.bindings.entries = none ↔ x ∉ Assoc.keys e.bindings.entries :=
    Assoc.get?_eq_none_iff
  show x ∈ Assoc.keys e.bindings.entries ↔ (Assoc.get? x e.bindings.entries).isSome = true
  cases hx : Assoc.get? x e.bindings.entries with
  | none => simpa using h.1 hx
  | some t =>
    have hmem : x ∈ Assoc.keys e.bindings.entries := by
      by_contra hn
      rw [h.2 hn] at hx
      cases hx
    simpa using hmem

theorem nodup_names (e : Env μ) : e.names.Nodup := e.bindings.nodup

theorem length_names (e : Env μ) : e.names.length = e.size := by
  show (e.bindings.entries.map Prod.fst).length = e.bindings.entries.length
  rw [List.length_map]

/-- A variable that is not registered is clean. -/
theorem taintOf_of_notMem {e : Env μ} {x : String} (h : x ∉ e.names) : e.taintOf x = ∅ := by
  show (Assoc.get? x e.bindings.entries).getD ∅ = ∅
  rw [Assoc.get?_eq_none_iff.2 h]
  rfl

theorem mem_names_of_mem_taintOf {e : Env μ} {x : String} {m : μ} (h : m ∈ e.taintOf x) : x ∈ e.names := by
  by_contra hx
  rw [taintOf_of_notMem hx] at h
  exact OrderedSet.not_mem_emptyc m h

theorem entries_eq_map_names (e : Env μ) :
    e.bindings.entries = e.names.map fun x => (x, e.taintOf x) :=
  Assoc.eq_map_keys ∅ e.bindings.nodup

/-- **The two views determine the environment.** -/
theorem ext_of_views {a b : Env μ} (hnames : a.names = b.names)
    (htaint : ∀ x, a.taintOf x = b.taintOf x) : a = b := by
  have hentries : a.bindings.entries = b.bindings.entries := by
    rw [entries_eq_map_names a, entries_eq_map_names b, hnames]
    exact List.map_congr_left fun x _ => by rw [htaint x]
  obtain ⟨⟨la, ha⟩⟩ := a
  obtain ⟨⟨lb, hb⟩⟩ := b
  obtain rfl : la = lb := hentries
  rfl

/-! ## §4. Changes. -/

theorem names_assign (e : Env μ) (x : String) (t : OrderedSet μ) :
    (e.assign x t).names = if x ∈ e.names then e.names else e.names ++ [x] :=
  OrderedMap.keys_put e.bindings x t

theorem mem_names_assign {e : Env μ} {x y : String} {t : OrderedSet μ} :
    y ∈ (e.assign x t).names ↔ y = x ∨ y ∈ e.names := by
  rw [names_assign]
  split
  · rename_i hx
    constructor
    · exact Or.inr
    · rintro (rfl | hy)
      · exact hx
      · exact hy
  · rw [List.mem_append, List.mem_singleton, or_comm]

theorem names_prefix_assign (e : Env μ) (x : String) (t : OrderedSet μ) :
    e.names <+: (e.assign x t).names := by
  rw [names_assign]
  split
  · exact List.prefix_refl _
  · exact List.prefix_append _ _

theorem taintOf_assign (e : Env μ) (x y : String) (t : OrderedSet μ) :
    (e.assign x t).taintOf y = if y = x then t else e.taintOf y := by
  show ((e.bindings.put x t).get? y).getD ∅ = _
  rw [OrderedMap.get?_put]
  split <;> rfl

/-- Registering a variable changes no taint. -/
@[simp] theorem taintOf_declare (e : Env μ) (x y : String) : (e.declare x).taintOf y = e.taintOf y := by
  unfold declare sanitize
  split
  · rfl
  · rename_i hx
    rw [taintOf_assign]
    split
    · rename_i hyx
      subst hyx
      exact (taintOf_of_notMem fun h => hx (mem_names_iff.1 h)).symm
    · rfl

theorem names_declare (e : Env μ) (x : String) :
    (e.declare x).names = if x ∈ e.names then e.names else e.names ++ [x] := by
  unfold declare sanitize
  by_cases hx : x ∈ e.names
  · rw [if_pos (mem_names_iff.1 hx), if_pos hx]
  · rw [if_neg fun h => hx (mem_names_iff.2 h), names_assign]

theorem mem_names_declare {e : Env μ} {x y : String} : y ∈ (e.declare x).names ↔ y = x ∨ y ∈ e.names := by
  rw [names_declare, ← names_assign e x ∅, mem_names_assign]

theorem names_prefix_declare (e : Env μ) (x : String) : e.names <+: (e.declare x).names := by
  rw [names_declare, ← names_assign e x ∅]
  exact names_prefix_assign e x ∅

theorem mem_names_foldl_sanitize {xs : List String} {e : Env μ} {y : String} :
    y ∈ (xs.foldl sanitize e).names ↔ y ∈ xs ∨ y ∈ e.names := by
  induction xs generalizing e with
  | nil => simp
  | cons x xs ih =>
    rw [List.foldl_cons, ih, sanitize, mem_names_assign, List.mem_cons]
    tauto

theorem names_prefix_foldl_sanitize (xs : List String) (e : Env μ) :
    e.names <+: (xs.foldl sanitize e).names := by
  induction xs generalizing e with
  | nil => exact List.prefix_refl _
  | cons x xs ih => exact (names_prefix_assign e x ∅).trans (ih (e.sanitize x))

/-- Clearing variables leaves the taints of the others. -/
theorem taintOf_foldl_sanitize (xs : List String) (e : Env μ) (y : String) :
    (xs.foldl sanitize e).taintOf y = if y ∈ xs then ∅ else e.taintOf y := by
  induction xs generalizing e with
  | nil => simp
  | cons x xs ih =>
    rw [List.foldl_cons, ih, sanitize, taintOf_assign]
    by_cases hy : y ∈ xs
    · rw [if_pos hy, if_pos (List.mem_cons_of_mem x hy)]
    · by_cases hyx : y = x
      · rw [if_neg hy, if_pos hyx, if_pos (hyx ▸ List.mem_cons_self)]
      · rw [if_neg hy, if_neg hyx, if_neg (by simp [hyx, hy])]

/-- What a series of assignments with distinct targets leaves: each target has its own
value, and the rest is as before. -/
theorem taintOf_foldl_assign (g : String → OrderedSet μ → OrderedSet μ) {l : List (String × OrderedSet μ)}
    (h : (Assoc.keys l).Nodup) (e : Env μ) (x : String) :
    (l.foldl (fun e b => e.assign b.1 (g b.1 b.2)) e).taintOf x
      = ((Assoc.get? x l).map (g x)).getD (e.taintOf x) := by
  induction l generalizing e with
  | nil => rfl
  | cons b rest ih =>
    obtain ⟨k, v⟩ := b
    obtain ⟨hk, hrest⟩ := List.nodup_cons.1 (show (k :: Assoc.keys rest).Nodup from h)
    rw [List.foldl_cons, ih hrest]
    by_cases hkx : k = x
    · subst hkx
      rw [Assoc.get?_eq_none_iff.2 hk]
      simp [Assoc.get?, taintOf_assign]
    · rw [Assoc.get?_cons_of_ne hkx, taintOf_assign, if_neg (Ne.symm hkx)]

theorem names_foldl_assign (g : String → OrderedSet μ → OrderedSet μ) {l : List (String × OrderedSet μ)}
    (h : (Assoc.keys l).Nodup) (e : Env μ) :
    (l.foldl (fun e b => e.assign b.1 (g b.1 b.2)) e).names
      = e.names ++ (Assoc.keys l).filter (· ∉ e.names) := by
  induction l generalizing e with
  | nil => simp [Assoc.keys]
  | cons b rest ih =>
    obtain ⟨k, v⟩ := b
    obtain ⟨hk, hrest⟩ := List.nodup_cons.1 (show (k :: Assoc.keys rest).Nodup from h)
    rw [List.foldl_cons, ih hrest]
    show (e.assign k (g k v)).names ++ _ = e.names ++ (k :: Assoc.keys rest).filter _
    by_cases hke : k ∈ e.names
    · rw [names_assign, if_pos hke, List.filter_cons_of_neg (by simpa using hke)]
    · -- the new key stands at the end, and the keys behind it differ from it
      have hfilter : (Assoc.keys rest).filter (· ∉ e.names ++ [k])
          = (Assoc.keys rest).filter (· ∉ e.names) := by
        refine List.filter_congr fun j hj => ?_
        have hjk : j ≠ k := fun hjk => hk (hjk ▸ hj)
        simp [hjk]
      rw [names_assign, if_neg hke, hfilter, List.filter_cons_of_pos (by simpa using hke)]
      simp

/-! ## §5. Inclusion and weight. -/

/-- Every variable has in the second environment the marks that it has in the first. -/
def Below (a b : Env μ) : Prop := ∀ x, ∀ m ∈ a.taintOf x, m ∈ b.taintOf x

theorem Below.refl (a : Env μ) : a.Below a := fun _ _ h => h

theorem Below.trans {a b c : Env μ} (hab : a.Below b) (hbc : b.Below c) : a.Below c :=
  fun x m h => hbc x m (hab x m h)

/-- The weight is a sum over any set of variables that has the registered ones. -/
theorem weight_eq_sum {e : Env μ} {S : Finset String} (h : ∀ x ∈ e.names, x ∈ S) :
    e.weight = ∑ x ∈ S, (e.taintOf x).size := by
  have hfold : ∀ l : List (String × OrderedSet μ),
      l.foldr (fun b n => b.2.size + n) 0 = (l.map fun b => b.2.size).sum := by
    intro l
    induction l with
    | nil => rfl
    | cons b l ih => rw [List.foldr_cons, ih, List.map_cons, List.sum_cons]
  calc e.weight = (e.bindings.entries.map fun b => b.2.size).sum := hfold _
    _ = (e.names.map fun x => (e.taintOf x).size).sum := by
        rw [entries_eq_map_names, List.map_map]
        rfl
    _ = ∑ x ∈ e.names.toFinset, (e.taintOf x).size := (List.sum_toFinset _ e.nodup_names).symm
    _ = ∑ x ∈ S, (e.taintOf x).size := by
        refine Finset.sum_subset (fun x hx => h x (List.mem_toFinset.1 hx)) fun x _ hx => ?_
        rw [taintOf_of_notMem fun hn => hx (List.mem_toFinset.2 hn), OrderedSet.size_emptyc]

/-- The marks of all variables, each as often as it is carried. -/
def marks (e : Env μ) : List μ := e.names.flatMap fun x => (e.taintOf x).toList

theorem mem_marks {e : Env μ} {m : μ} : m ∈ e.marks ↔ ∃ x, m ∈ e.taintOf x := by
  unfold marks
  rw [List.mem_flatMap]
  constructor
  · rintro ⟨x, -, hm⟩
    exact ⟨x, hm⟩
  · rintro ⟨x, hm⟩
    exact ⟨x, mem_names_of_mem_taintOf hm, hm⟩

theorem length_marks (e : Env μ) : e.marks.length = e.weight := by
  unfold marks
  rw [List.length_flatMap, weight_eq_sum (S := e.names.toFinset) fun x hx => List.mem_toFinset.2 hx,
    List.sum_toFinset _ e.nodup_names]
  rfl

variable [Std.TransOrd μ]

section Weight

variable [DecidableEq μ]

/-- **The weight is at most the number of variables times the number of marks.** -/
theorem weight_le_mul {e : Env μ} {M : Finset μ} (h : ∀ x, ∀ m ∈ e.taintOf x, m ∈ M) :
    e.weight ≤ e.size * M.card := by
  rw [weight_eq_sum (S := e.names.toFinset) fun x hx => List.mem_toFinset.2 hx]
  calc ∑ x ∈ e.names.toFinset, (e.taintOf x).size
      ≤ ∑ _x ∈ e.names.toFinset, M.card := Finset.sum_le_sum fun x _ => OrderedSet.size_le_card (h x)
    _ = e.size * M.card := by
        rw [Finset.sum_const, List.toFinset_card_of_nodup e.nodup_names, length_names]
        rfl

/-- **Growing without gaining weight changes no taint.** -/
theorem taintOf_eq_of_weight_le {a b : Env μ} (hab : a.Below b) (hw : b.weight ≤ a.weight) (x : String) :
    a.taintOf x = b.taintOf x := by
  -- over the variables of both, the two weights are sums of sizes that compare one by one
  let S := a.names.toFinset ∪ b.names.toFinset
  have hsize : ∀ y ∈ S, (a.taintOf y).size ≤ (b.taintOf y).size :=
    fun y _ => OrderedSet.size_le_of_forall_mem (hab y)
  rw [weight_eq_sum (e := a) (S := S) fun y hy => by simp [S, hy],
    weight_eq_sum (e := b) (S := S) fun y hy => by simp [S, hy]] at hw
  have heq := (Finset.sum_eq_sum_iff_of_le hsize).1 (le_antisymm (Finset.sum_le_sum hsize) hw)
  by_cases hx : x ∈ S
  · exact OrderedSet.eq_of_forall_mem_of_size_le (hab x) (heq x hx).ge
  · have hx : x ∉ a.names ∧ x ∉ b.names := by simpa [S] using hx
    rw [taintOf_of_notMem hx.1, taintOf_of_notMem hx.2]

end Weight

/-! ## §6. The join. -/

/-- The variables of the second side come first, then those that only the first side has. -/
theorem names_join (a b : Env μ) : (a.join b).names = b.names ++ a.names.filter (· ∉ b.names) :=
  names_foldl_assign (fun y t => t ∪ b.taintOf y) a.bindings.nodup b

theorem mem_names_join {a b : Env μ} {x : String} : x ∈ (a.join b).names ↔ x ∈ a.names ∨ x ∈ b.names := by
  rw [names_join, List.mem_append, List.mem_filter]
  by_cases hb : x ∈ b.names <;> simp [hb]

theorem names_prefix_join (a b : Env μ) : b.names <+: (a.join b).names := by
  rw [names_join]
  exact List.prefix_append _ _

variable [Std.LawfulEqOrd μ]

/-- **A join has the marks of both sides.** -/
theorem taintOf_join (a b : Env μ) (x : String) :
    (a.join b).taintOf x = a.taintOf x ∪ b.taintOf x := by
  unfold join
  rw [taintOf_foldl_assign (fun y t => t ∪ b.taintOf y) a.bindings.nodup]
  show _ = (Assoc.get? x a.bindings.entries).getD ∅ ∪ b.taintOf x
  cases Assoc.get? x a.bindings.entries with
  | some t => rfl
  | none => exact OrderedSet.ext fun m => by simp

theorem mem_taintOf_join {a b : Env μ} {x : String} {m : μ} :
    m ∈ (a.join b).taintOf x ↔ m ∈ a.taintOf x ∨ m ∈ b.taintOf x := by
  rw [taintOf_join, OrderedSet.mem_union]

end Env

end TaintFlow
