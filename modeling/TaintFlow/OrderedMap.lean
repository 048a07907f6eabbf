/-
  TaintFlow.OrderedMap
  ────────────────────
  Finite maps that remember the order in which their keys were first given.

  `Assoc` holds the operations on plain lists of pairs and what they do to look-up
  and to the keys: setting a key changes its value in place, and a new key goes to
  the end (`Assoc.keys_put`).  An `OrderedMap` is such a list with distinct keys.
-/

namespace TaintFlow

namespace Assoc

variable {κ ν : Type} [DecidableEq κ]

/-! ## §1. Lists of pairs. -/

/-- The value of a key. -/
def get? (key : κ) : List (κ × ν) → Option ν
  | [] => none
  | (k, v) :: rest => if k = key then some v else get? key rest

/-- The pairs with `key` set to `value`: in its old place, or else at the end. -/
def put (key : κ) (value : ν) : List (κ × ν) → List (κ × ν)
  | [] => [(key, value)]
  | (k, v) :: rest => if k = key then (k, value) :: rest else (k, v) :: put key value rest

/-- The keys in order. -/
def keys (l : List (κ × ν)) : List κ := l.map Prod.fst

@[simp] theorem get?_put_self (key : κ) (value : ν) (l : List (κ × ν)) :
    get? key (put key value l) = some value := by
  induction l with
  | nil => simp [put, get?]
  | cons e rest ih => by_cases h : e.1 = key <;> simp [put, get?, h, ih]

theorem get?_put_of_ne {key other : κ} (h : other ≠ key) (value : ν) (l : List (κ × ν)) :
    get? other (put key value l) = get? other l := by
  induction l with
  | nil => simp [put, get?, Ne.symm h]
  | cons e rest ih =>
    by_cases he : e.1 = key
    · simp [put, get?, he, Ne.symm h]
    · simp [put, get?, he, ih]

theorem get?_put (key other : κ) (value : ν) (l : List (κ × ν)) :
    get? other (put key value l) = if other = key then some value else get? other l := by
  by_cases h : other = key
  · simp [h]
  · simp [h, get?_put_of_ne h]

/-- A new key goes to the end, an old one keeps its place. -/
theorem keys_put (key : κ) (value : ν) (l : List (κ × ν)) :
    keys (put key value l) = if key ∈ keys l then keys l else keys l ++ [key] := by
  induction l with
  | nil => simp [put, keys]
  | cons e rest ih =>
    by_cases he : e.1 = key
    · simp [put, keys, he]
    · have ih : List.map Prod.fst (put key value rest) =
          if key ∈ rest.map Prod.fst then rest.map Prod.fst else rest.map Prod.fst ++ [key] := ih
      have hk : ¬ key = e.1 := fun h => he h.symm
      simp only [put, he, if_false, keys, List.map_cons, ih, List.mem_cons, hk, false_or]
      split <;> simp

theorem get?_eq_none_iff {key : κ} {l : List (κ × ν)} : get? key l = none ↔ key ∉ keys l := by
  induction l with
  | nil => simp [get?, keys]
  | cons e rest ih =>
    have ih : get? key rest = none ↔ key ∉ rest.map Prod.fst := ih
    by_cases he : e.1 = key
    · simp [get?, keys, he]
    · have hk : ¬ key = e.1 := fun h => he h.symm
      simp [get?, keys, he, hk, ih]

theorem get?_append_of_notMem {key : κ} {l : List (κ × ν)} (h : key ∉ keys l) (l' : List (κ × ν)) :
    get? key (l ++ l') = get? key l' := by
  induction l with
  | nil => rfl
  | cons e rest ih =>
    have hne : ¬ e.1 = key := fun heq => h (heq ▸ List.mem_cons_self)
    have hrest : key ∉ keys rest := fun hmem => h (List.mem_cons_of_mem _ hmem)
    simp [get?, hne, ih hrest]

/-- A key that is not among the first pairs is set among the others. -/
theorem put_append_of_notMem {key : κ} {l : List (κ × ν)} (h : key ∉ keys l) (value : ν) (l' : List (κ × ν)) :
    put key value (l ++ l') = l ++ put key value l' := by
  induction l with
  | nil => rfl
  | cons e rest ih =>
    have hne : ¬ e.1 = key := fun heq => h (heq ▸ List.mem_cons_self)
    have hrest : key ∉ keys rest := fun hmem => h (List.mem_cons_of_mem _ hmem)
    simp [put, hne, ih hrest]

/-- Where keys are distinct, every pair is found under its key. -/
theorem get?_of_mem {e : κ × ν} {l : List (κ × ν)} (hkeys : (keys l).Nodup) (he : e ∈ l) : get? e.1 l = some e.2 := by
  induction l with
  | nil => cases he
  | cons first rest ih =>
    obtain ⟨hfirst, hrest⟩ := List.nodup_cons.1 (show (first.1 :: keys rest).Nodup from hkeys)
    rw [get?]
    rcases List.mem_cons.1 he with rfl | he
    · rw [if_pos rfl]
    · have hne : first.1 ≠ e.1 := by
        intro heq
        exact hfirst (heq ▸ List.mem_map_of_mem he)
      rw [if_neg hne, ih hrest he]

theorem mem_of_get? {key : κ} {value : ν} {l : List (κ × ν)} (h : get? key l = some value) : (key, value) ∈ l := by
  induction l with
  | nil => cases h
  | cons e rest ih =>
    rw [get?] at h
    split at h
    · rename_i hkey
      cases h
      exact hkey ▸ List.mem_cons_self
    · exact List.mem_cons_of_mem _ (ih h)

/-- Setting a key brings in no pair but the new one. -/
theorem eq_or_mem_of_mem_put {key : κ} {value : ν} {e : κ × ν} {l : List (κ × ν)} (h : e ∈ put key value l) :
    e = (key, value) ∨ e ∈ l := by
  induction l with
  | nil => exact .inl (List.mem_singleton.1 h)
  | cons first rest ih =>
    rw [put] at h
    split at h
    · rename_i hkey
      rcases List.mem_cons.1 h with rfl | h
      · exact .inl (hkey ▸ rfl)
      · exact .inr (List.mem_cons_of_mem _ h)
    · rcases List.mem_cons.1 h with rfl | h
      · exact .inr List.mem_cons_self
      · exact (ih h).imp_right (List.mem_cons_of_mem _)

end Assoc

/-! ## §2. Maps. -/

/-- A finite map; `entries` lists its pairs by the first appearance of their keys. -/
structure OrderedMap (κ ν : Type) [DecidableEq κ] where
  entries : List (κ × ν)
  nodup : (Assoc.keys entries).Nodup
  deriving Repr

namespace OrderedMap

variable {κ ν : Type} [DecidableEq κ]

instance [DecidableEq ν] : DecidableEq (OrderedMap κ ν) := fun a b =>
  decidable_of_iff (a.entries = b.entries) (by cases a; cases b; simp)

/-- The map without keys. -/
def empty : OrderedMap κ ν := ⟨[], by simp [Assoc.keys]⟩

instance : EmptyCollection (OrderedMap κ ν) := ⟨empty⟩
instance : Inhabited (OrderedMap κ ν) := ⟨empty⟩

/-- The keys in the order of their first appearance. -/
def keys (m : OrderedMap κ ν) : List κ := Assoc.keys m.entries

/-- The number of keys. -/
def size (m : OrderedMap κ ν) : Nat := m.entries.length

/-- The value of a key. -/
def get? (m : OrderedMap κ ν) (key : κ) : Option ν := Assoc.get? key m.entries

/-- Is there a value for the key? -/
def contains (m : OrderedMap κ ν) (key : κ) : Bool := (m.get? key).isSome

/-- Set a key. -/
def put (m : OrderedMap κ ν) (key : κ) (value : ν) : OrderedMap κ ν :=
  ⟨Assoc.put key value m.entries, by
    have := m.nodup
    rw [Assoc.keys_put]
    split
    · exact this
    · rename_i h
      exact List.nodup_append.2 ⟨this, by simp, fun a ha b hb => by
        simp only [List.mem_singleton] at hb
        exact fun hab => h (hb ▸ hab ▸ ha)⟩⟩

/-- The map of pairs given one after the other: the first place and the last value
of a key count. -/
def ofList (l : List (κ × ν)) : OrderedMap κ ν := l.foldl (fun m e => m.put e.1 e.2) empty

@[simp] theorem get?_put_self (m : OrderedMap κ ν) (key : κ) (value : ν) :
    (m.put key value).get? key = some value := Assoc.get?_put_self key value m.entries

theorem get?_put (m : OrderedMap κ ν) (key other : κ) (value : ν) :
    (m.put key value).get? other = if other = key then some value else m.get? other :=
  Assoc.get?_put key other value m.entries

theorem keys_put (m : OrderedMap κ ν) (key : κ) (value : ν) :
    (m.put key value).keys = if key ∈ m.keys then m.keys else m.keys ++ [key] :=
  Assoc.keys_put key value m.entries

/-- Do the maps have the same value for every key? -/
def sameEntries [DecidableEq ν] (a b : OrderedMap κ ν) : Bool :=
  a.size == b.size && a.entries.all fun e => b.get? e.1 == some e.2

end OrderedMap

end TaintFlow
