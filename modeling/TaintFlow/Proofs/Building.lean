/-
  TaintFlow.Proofs.Building
  ─────────────────────────
  **What the builder of a tree comes to, said once for all kinds of nodes.**

    • `positions`, `Visits` — the values inside an object that nodes are made of, and all values
      that are visited in this way,
    • `Faulty` — what a builder can stumble over in a value,
    • `Compositional` — a property of builders that passes from parts to wholes; `build` has it
      if it holds of the refusals that can come up on the way,
    • `contains_of_load` — only a fault at a position that is visited ends the building of a tree
      without a message.
-/
import Mathlib.Logic.Relation
import TaintFlow.Syntax.Load

namespace TaintFlow.Syntax

/-! ## §1. Positions. -/

/-- The kind of an object, if it has a known one. -/
def kind? (raw : Datum) : Option Kind :=
  if raw.isMap then
    match raw.get? "kind" with
    | some (.text name) => Kind.ofName? name
    | _ => none
  else none

/-- A part of an object, unless it is absent or null. -/
def present (raw : Datum) (name : String) : List Datum :=
  match raw.field name with
  | .null => []
  | d => [d]

/-- The items of a list; anything else has none. -/
def items : Datum → List Datum
  | .list l => l
  | _ => []

/-- The statements of a branch or loop body. -/
def bodyItems : Datum → List Datum
  | .null => []
  | d =>
    match d.get? "kind" with
    | some (.text "block") => items (d.field "children")
    | _ => [d]

/-- The parts of an interpolated text, taken out of their wrappers. -/
def partItems (d : Datum) : List Datum :=
  if d.truth then (d.members?.getD []).map unwrapPart else []

/-- **The values that the parts of an object's node are made of**, in order. -/
def positions (raw : Datum) : Kind → List Datum
  | .assign | .bin => present raw "left" ++ present raw "right"
  | .echo | .call => items (raw.field "arguments")
  | .cond => present raw "test" ++ (bodyItems (raw.field "body") ++ bodyItems (raw.field "alternate"))
  | .loop => present raw "test" ++ bodyItems (raw.field "body")
  | .offsetLookup => present raw "offset"
  | .var | .string => []
  | .encapsed => partItems (raw.field "value")
  | .block => items (raw.field "children")

/-- The value is at a position of the object. -/
def Inside (raw d : Datum) : Prop := ∃ kind, kind? raw = some kind ∧ d ∈ positions raw kind

/-- Building the first value leads to the second. -/
def Visits : Datum → Datum → Prop := Relation.ReflTransGen Inside

/-- An interpolated text whose parts are given by something that cannot be walked over: a number other than zero
or a truth value. -/
structure Unwalkable (raw : Datum) : Prop where
  kind : kind? raw = some .encapsed
  truth : (raw.field "value").truth = true
  members : (raw.field "value").members? = none

/-- The field whose text goes into a node: the operator of an operation, the value of a literal. -/
def writtenField? : Kind → Option String
  | .bin => some "type"
  | .string => some "value"
  | _ => none

/-- A literal or an operator with a number in it that has too many digits to be written. -/
structure Unwritable (raw : Datum) : Prop where
  field : ∃ kind name, kind? raw = some kind ∧ writtenField? kind = some name ∧ (raw.field name).writable = false

/-- **What a builder stumbles over**, apart from too deep a nesting. -/
def Faulty : BuildError → Datum → Prop
  | .partsNotWalkable, raw => Unwalkable raw
  | .unwritable, raw => Unwritable raw
  | .tooDeep, _ => False

theorem display?_eq_none_iff {d : Datum} : d.display? = none ↔ d.writable = false := by
  unfold Datum.display?
  cases d.writable <;> simp

/-- The operator that an absent one counts as can be written. -/
theorem writable_operator (raw : Datum) :
    ((raw.get? "type").getD (.text "")).writable = (raw.field "type").writable := by
  unfold Datum.field
  cases raw.get? "type" <;> rfl

theorem field_mem_present {raw : Datum} {name : String} (h : raw.field name ≠ .null) :
    raw.field name ∈ present raw name := by
  unfold present
  split
  · rename_i hnull
    exact absurd hnull h
  · exact List.mem_singleton_self _

theorem build_of_kind {raw : Datum} {kind : Kind} (h : kind? raw = some kind) (limit : Nat) :
    build (limit + 1) raw = buildKind (build limit) raw kind := by
  unfold kind? at h
  unfold build
  by_cases hmap : raw.isMap = true
  · rw [if_pos hmap] at h ⊢
    split
    · rename_i name hname
      rw [hname] at h
      simp only [h]
    · rename_i hnone
      split at h
      · rename_i name hname
        exact absurd hname (hnone name)
      · cases h
  · rw [if_neg hmap] at h
    cases h

theorem build_of_no_kind {raw : Datum} (h : kind? raw = none) (limit : Nat) :
    ∃ reason rawKind, build (limit + 1) raw = degrade reason rawKind := by
  unfold kind? at h
  unfold build
  by_cases hmap : raw.isMap = true
  · rw [if_pos hmap] at h ⊢
    split
    · rename_i name hname
      rw [hname] at h
      simp only [h]
      exact ⟨_, _, rfl⟩
    · exact ⟨_, _, rfl⟩
  · rw [if_neg hmap]
    exact ⟨_, _, rfl⟩

/-! ## §2. From parts to wholes. -/

/-- A property of builders that holds of a sequence if it holds of its steps. -/
structure Compositional (P : {α : Type} → Builder α → Prop) : Prop where
  done {α : Type} (a : α) : P (pure a)
  andThen {α β : Type} {b : Builder α} {f : α → Builder β} : P b → (∀ a, P (f a)) → P (b >>= f)
  degrade (reason : Degradation) (rawKind : Option String) : P (degrade reason rawKind)

namespace Compositional

variable {P : {α : Type} → Builder α → Prop} (hP : Compositional P)
include hP

theorem each {α β : Type} {f : α → Builder β} {l : List α} (h : ∀ a ∈ l, P (f a)) : P (l.mapM f) := by
  induction l with
  | nil => exact hP.done []
  | cons a l ih =>
    rw [List.mapM_cons]
    refine hP.andThen (h a List.mem_cons_self) fun b => ?_
    exact hP.andThen (ih fun x hx => h x (List.mem_cons_of_mem a hx)) fun bs => hP.done (b :: bs)

variable {make : Datum → Builder Node}

theorem required {raw : Datum} {kind : Kind} {part : Part} (h : ∀ d ∈ present raw part.name, P (make d)) :
    P (requiredPart make raw kind part) := by
  unfold requiredPart
  split
  · exact hP.degrade _ _
  · exact hP.degrade _ _
  · rename_i d hnull hd
    have hfield : raw.field part.name = d := by
      unfold Datum.field
      rw [hd]
      rfl
    have hpresent : raw.field part.name ∈ present raw part.name :=
      field_mem_present fun heq => hnull (hfield.symm.trans heq)
    exact h d (hfield ▸ hpresent)

theorem listed {d : Datum} (h : ∀ x ∈ items d, P (make x)) : P (nodes make d) := by
  unfold nodes
  split
  · exact hP.each h
  · exact hP.done []

theorem body {d : Datum} (h : ∀ x ∈ bodyItems d, P (make x)) : P (statements make d) := by
  unfold statements
  split
  · exact hP.done []
  · rename_i hnull
    split
    · rename_i hblock
      rw [bodyItems, hblock] at h
      · exact hP.listed h
      · exact hnull
    · rename_i hplain
      rw [bodyItems] at h
      · split at h
        · rename_i hblock
          exact absurd hblock hplain
        · exact hP.andThen (h d (List.mem_singleton_self d)) fun n => hP.done [n]
      · exact hnull

theorem interpolated {d : Datum} (h : ∀ x ∈ partItems d, P (make x))
    (hwalk : d.truth = true → d.members? = none → P (throw .partsNotWalkable : Builder (List Node))) :
    P (parts make d) := by
  unfold partItems at h
  unfold parts
  split
  · rename_i htruth
    cases hmembers : d.members? with
    | none => exact hwalk htruth hmembers
    | some l =>
      rw [if_pos htruth, hmembers] at h
      exact hP.each fun x hx => h _ (List.mem_map_of_mem hx)
  · exact hP.done []

theorem text {d : Datum} (h : d.writable = false → P (throw .unwritable : Builder String)) : P (written d) := by
  unfold written
  split
  · exact hP.done _
  · rename_i hnone
    exact h (display?_eq_none_iff.1 hnone)

/-- **Nodes of every kind**: what is left are the refusals that the object itself gives rise to. -/
theorem ofKind {raw : Datum} {kind : Kind} (hkind : kind? raw = some kind) (h : ∀ d ∈ positions raw kind, P (make d))
    (hfault : ∀ {α : Type} (e : BuildError), Faulty e raw → P (throw e : Builder α)) :
    P (buildKind make raw kind) := by
  have hwrite : ∀ {name : String}, writtenField? kind = some name → (raw.field name).writable = false →
      P (throw .unwritable : Builder String) := fun hname hfield => hfault .unwritable ⟨_, _, hkind, hname, hfield⟩
  cases kind with
  | assign =>
    obtain ⟨hleft, hright⟩ := List.forall_mem_append.1 h
    exact hP.andThen (hP.required hleft) fun _ => hP.andThen (hP.required hright) fun _ => hP.done _
  | echo => exact hP.andThen (hP.listed h) fun _ => hP.done _
  | cond =>
    obtain ⟨htest, hrest⟩ := List.forall_mem_append.1 h
    obtain ⟨hbody, halternate⟩ := List.forall_mem_append.1 hrest
    refine hP.andThen (hP.required htest) fun _ => hP.andThen (hP.body hbody) fun _ => ?_
    split
    · exact hP.done _
    · exact hP.andThen (hP.body halternate) fun _ => hP.done _
  | loop =>
    obtain ⟨htest, hbody⟩ := List.forall_mem_append.1 h
    exact hP.andThen (hP.required htest) fun _ => hP.andThen (hP.body hbody) fun _ => hP.done _
  | bin =>
    obtain ⟨hleft, hright⟩ := List.forall_mem_append.1 h
    refine hP.andThen (hP.text fun hoperator => ?_) fun _ =>
      hP.andThen (hP.required hleft) fun _ => hP.andThen (hP.required hright) fun _ => hP.done _
    rw [writable_operator] at hoperator
    exact hwrite rfl hoperator
  | call => exact hP.andThen (hP.listed h) fun _ => hP.done _
  | offsetLookup =>
    rw [buildKind]
    split
    · exact hP.done _
    · rename_i hnull
      exact hP.andThen (h _ (field_mem_present hnull)) fun _ => hP.done _
  | var => exact hP.done _
  | string =>
    rw [buildKind]
    split
    · exact hP.done _
    · exact hP.andThen (hP.text (hwrite rfl)) fun _ => hP.done _
  | encapsed =>
    refine hP.andThen (hP.interpolated h fun htruth hmembers => ?_) fun _ => hP.done _
    exact hfault .partsNotWalkable ⟨hkind, htruth, hmembers⟩
  | block => exact hP.andThen (hP.listed h) fun _ => hP.done _

/-- **Nodes of values**: what is left are the refusals that can come up. -/
theorem ofValue (hdeep : P (throw .tooDeep : Builder Node)) (limit : Nat) :
    ∀ {raw : Datum}, (∀ {α : Type} (e : BuildError) (d : Datum), Visits raw d → Faulty e d → P (throw e : Builder α)) →
      P (build limit raw) := by
  induction limit with
  | zero => exact fun _ => hdeep
  | succ limit ih =>
    intro raw hfault
    cases hkind : kind? raw with
    | none =>
      obtain ⟨reason, rawKind, heq⟩ := build_of_no_kind hkind limit
      rw [heq]
      exact hP.degrade reason rawKind
    | some kind =>
      rw [build_of_kind hkind]
      refine hP.ofKind hkind (fun d hd => ?_) fun e => hfault e raw Relation.ReflTransGen.refl
      -- what is visited from a position is visited from the object too
      refine ih fun e w hw => hfault e w ?_
      exact Relation.ReflTransGen.head ⟨kind, hkind, hd⟩ hw

end Compositional

/-! ## §3. Refusals. -/

/-- A step goes on with the notes that were left, unless there was a refusal. -/
theorem run_andThen {α β : Type} (b : Builder α) (f : α → Builder β) (notes : Notes) :
    (b >>= f).run notes = match b.run notes with
      | (.ok a, after) => (f a).run after
      | (.error e, after) => (.error e, after) := by
  rcases h : b.run notes with ⟨_ | _, after⟩
  · show (ExceptT.bindCont f (b.run notes).1).run (b.run notes).2 = _
    rw [h]
    rfl
  · show (ExceptT.bindCont f (b.run notes).1).run (b.run notes).2 = _
    rw [h]
    rfl

/-- A builder that refuses for the given reason only if the condition holds. -/
def RefusesOnlyIf (reason : BuildError) (condition : Prop) {α : Type} (b : Builder α) : Prop :=
  ∀ notes, (b.run notes).1 = .error reason → condition

theorem refusesOnlyIf_compositional (reason : BuildError) (condition : Prop) :
    Compositional (RefusesOnlyIf reason condition) where
  done a := fun _ h => nomatch h
  andThen := by
    intro α β b f hb hf notes h
    rw [run_andThen] at h
    rcases hrun : b.run notes with ⟨e | a, after⟩
    · rw [hrun] at h
      refine hb notes ?_
      rw [hrun, Except.error.inj h]
    · rw [hrun] at h
      exact hf a after h
  degrade reason rawKind := fun _ h => nomatch h

/-! ## §4. Trees. -/

/-- Some child of a tree leads to a value with the property. -/
def Contains (property : Datum → Prop) (data : Datum) : Prop :=
  ∃ children, data.field "children" = .list children ∧ ∃ child ∈ children, ∃ d, Visits child d ∧ property d

/-- **Only a fault at a position that is visited ends the building of a tree**, unless it is nested too deeply. -/
theorem contains_of_load {limits : Limits} {data : Datum} {notes : Notes} {reason : BuildError}
    (hreason : reason ≠ .tooDeep) (h : (load limits data notes).1 = .error (.ofBuildError reason)) :
    Contains (Faulty reason) data := by
  obtain ⟨why, hload⟩ | hload | ⟨children, hchildren, ⟨result, after⟩, hrun, hload⟩ := load_cases limits data notes
  · rw [hload] at h
    cases reason with
    | tooDeep => exact absurd rfl hreason
    | _ => cases h
  · rw [hload] at h
    cases h
  · have hcomp := refusesOnlyIf_compositional reason (Contains (Faulty reason) data)
    have hall : RefusesOnlyIf reason (Contains (Faulty reason) data) (children.mapM (build limits.tree)) := by
      refine hcomp.each fun child hchild => hcomp.ofValue (fun _ h => ?_) _ fun e d hvisits hd _ h => ?_
      · exact absurd (Except.error.inj h).symm hreason
      · cases Except.error.inj h
        exact ⟨children, hchildren, child, hchild, d, hvisits, hd⟩
    refine hall notes ?_
    rw [hload] at h
    rw [hrun]
    cases result with
    | ok nodes => cases h
    | error e =>
      have hsame : LoadError.ofBuildError e = .ofBuildError reason := Except.error.inj h
      rw [LoadError.ofBuildError_inj hsame]

end TaintFlow.Syntax
