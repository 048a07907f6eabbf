/-
  TaintFlow.Proofs.Encoding
  ─────────────────────────
  **Building inverts the encoding of trees.**

  A tree is given by objects, one for each node, with the kind of the node and the fields of that
  kind.  There is some freedom in it: names may be left out, the parts of an interpolated text
  may be wrapped, and an object may have any other fields.

    • `Encodes` — the value encodes the tree, one rule for each kind of node,
    • `Node.height` — how deeply the nodes of a tree are nested,
    • `attempt` — a builder that makes its node or gives up on the depth, and leaves no notes,
    • `build_of_encodes` — building the encoding of a tree is such an attempt,
    • `encodes_encode` — every tree without unknown nodes has an encoding, in a data file.
-/
import Mathlib.Data.List.Forall2
import TaintFlow.Proofs.Buildable

namespace TaintFlow

/-! ## §1. Height and knownness. -/

namespace Node

/-- How deeply the nodes of a tree are nested.  Branches and loop bodies are no level of their own. -/
def height (n : Node) : Nat := 1 + (n.children.attach.map fun c => c.val.height).foldr max 0
termination_by sizeOf n
decreasing_by exact sizeOf_lt_of_mem_children c.property

theorem height_eq (n : Node) : n.height = 1 + (n.children.map height).foldr max 0 := by
  rw [height, List.attach_map_val (f := height)]

theorem height_le_succ_iff {n : Node} {limit : Nat} : n.height ≤ limit + 1 ↔ ∀ c ∈ n.children, c.height ≤ limit := by
  have hmax : ∀ ns : List Node, (ns.map height).foldr max 0 ≤ limit ↔ ∀ c ∈ ns, c.height ≤ limit := by
    intro ns
    induction ns with
    | nil => simp
    | cons c rest ih =>
      rw [List.map_cons, List.foldr_cons, Nat.max_le, ih, List.forall_mem_cons]
  rw [height_eq, Nat.add_comm, Nat.add_le_add_iff_right, hmax]

/-- There are no unknown nodes in the tree. -/
def Known (n : Node) : Prop := ∀ m : Node, m.Occurs n → m.reason? = none

theorem known_iff {n : Node} : n.Known ↔ n.reason? = none ∧ ∀ c ∈ n.children, c.Known := by
  constructor
  · intro h
    exact ⟨h n .root, fun c hc m hm => h m (.inside hc hm)⟩
  · rintro ⟨hroot, hchildren⟩ m hm
    cases hm with
    | root => exact hroot
    | inside hc hm => exact hchildren _ hc m hm

end Node

namespace Syntax

/-! ## §2. Encodings. -/

/-- The name of an object is the given one; without one, the object has no text for a name, or there is none. -/
def Named (d : Datum) (name : Option String) : Prop := ∀ x : String, d.get? "name" = some (.text x) ↔ name = some x

mutual

/-- **The value encodes the tree**: it is an object of the root's kind, and its fields encode the parts.  All other
fields are free. -/
inductive Encodes : Datum → Node → Prop where
  | var {raw : Datum} {name : Option String} (hkind : OfKind raw .var) (hname : Named raw name) :
    Encodes raw (.var name)
  | string {raw : Datum} {value : String} (hkind : OfKind raw .string) (hvalue : raw.field "value" = .text value) :
    Encodes raw (.string value)
  | offsetLookup {raw : Datum} {name : Option String} {offset : Option Node} (hkind : OfKind raw .offsetLookup)
    (hname : Named (raw.field "what") name) (hoffset : EncodesOffset (raw.field "offset") offset) :
    Encodes raw (.offsetLookup name offset)
  | bin {raw : Datum} {operator : String} {left right : Node} (hkind : OfKind raw .bin)
    (hoperator : raw.get? "type" = some (.text operator)) (hleft : Encodes (raw.field "left") left)
    (hright : Encodes (raw.field "right") right) : Encodes raw (.bin operator left right)
  | call {raw : Datum} {name : Option String} {l : List Datum} {arguments : List Node} (hkind : OfKind raw .call)
    (hname : Named (raw.field "what") name) (hlist : raw.field "arguments" = .list l)
    (harguments : List.Forall₂ Encodes l arguments) : Encodes raw (.call name arguments)
  | encapsed {raw : Datum} {l : List Datum} {parts : List Node} (hkind : OfKind raw .encapsed)
    (hlist : raw.field "value" = .list l) (hparts : List.Forall₂ EncodesPart l parts) : Encodes raw (.encapsed parts)
  | assign {raw : Datum} {left right : Node} (hkind : OfKind raw .assign) (hleft : Encodes (raw.field "left") left)
    (hright : Encodes (raw.field "right") right) : Encodes raw (.assign left right)
  | echo {raw : Datum} {l : List Datum} {arguments : List Node} (hkind : OfKind raw .echo)
    (hlist : raw.field "arguments" = .list l) (harguments : List.Forall₂ Encodes l arguments) :
    Encodes raw (.echo arguments)
  | cond {raw : Datum} {test : Node} {body : List Node} {alternate : Option (List Node)} (hkind : OfKind raw .cond)
    (htest : Encodes (raw.field "test") test) (hbody : EncodesBody (raw.field "body") body)
    (halternate : EncodesAlternate (raw.field "alternate") alternate) : Encodes raw (.cond test body alternate)
  | loop {raw : Datum} {test : Node} {body : List Node} (hkind : OfKind raw .loop)
    (htest : Encodes (raw.field "test") test) (hbody : EncodesBody (raw.field "body") body) :
    Encodes raw (.loop test body)
  | block {raw : Datum} {l : List Datum} {children : List Node} (hkind : OfKind raw .block)
    (hlist : raw.field "children" = .list l) (hchildren : List.Forall₂ Encodes l children) :
    Encodes raw (.block children)

/-- The value encodes the offset of a read, which may be left out. -/
inductive EncodesOffset : Datum → Option Node → Prop where
  | absent {d : Datum} (hnull : d = .null) : EncodesOffset d none
  | present {d : Datum} {offset : Node} (hoffset : Encodes d offset) : EncodesOffset d (some offset)

/-- The block encodes the statements of a branch or a loop. -/
inductive EncodesBody : Datum → List Node → Prop where
  | block {d : Datum} {l : List Datum} {body : List Node} (hkind : OfKind d .block)
    (hlist : d.field "children" = .list l) (hbody : List.Forall₂ Encodes l body) : EncodesBody d body

/-- The value encodes the second branch of a conditional, which may be left out. -/
inductive EncodesAlternate : Datum → Option (List Node) → Prop where
  | absent {d : Datum} (hnull : d = .null) : EncodesAlternate d none
  | present {d : Datum} {body : List Node} (hbody : EncodesBody d body) : EncodesAlternate d (some body)

/-- The value encodes a part of an interpolated text, plain or in a wrapper. -/
inductive EncodesPart : Datum → Node → Prop where
  | plain {d : Datum} {part : Node} (hpart : Encodes d part) : EncodesPart d part
  | wrapped {d : Datum} {part : Node} (hkind : d.get? "kind" = some (.text "encapsedpart"))
    (hpart : Encodes (d.field "expression") part) : EncodesPart d part

end

theorem named_some {d : Datum} {x : String} (h : d.get? "name" = some (.text x)) : Named d (some x) := by
  intro y
  rw [h]
  simp

theorem named_none {d : Datum} (h : d.get? "name" = none) : Named d none := by
  intro y
  rw [h]
  simp

theorem Named.nameOf_eq {d : Datum} {name : Option String} (h : Named d name) : nameOf d = name := by
  refine Option.ext fun x => ?_
  rw [← h x]
  unfold nameOf
  constructor
  · intro hname
    obtain ⟨value, hvalue, htext⟩ := Option.bind_eq_some_iff.1 hname
    rw [hvalue]
    unfold Datum.text? at htext
    split at htext
    · rw [Option.some.inj htext]
    · cases htext
  · intro hname
    rw [hname]
    rfl

/-- An encoding is an object of a known kind. -/
theorem Encodes.exists_kind {raw : Datum} {n : Node} (h : Encodes raw n) : ∃ kind, OfKind raw kind := by
  cases h <;> exact ⟨_, ‹_›⟩

theorem ne_null_of_get? {d value : Datum} {name : String} (h : d.get? name = some value) : d ≠ .null := by
  rintro rfl
  cases h

theorem Encodes.ne_null {raw : Datum} {n : Node} (h : Encodes raw n) : raw ≠ .null := by
  obtain ⟨kind, hkind⟩ := h.exists_kind
  exact ne_null_of_get? hkind

theorem EncodesBody.ne_null {d : Datum} {body : List Node} (h : EncodesBody d body) : d ≠ .null := by
  obtain ⟨hkind, -, -⟩ := h
  exact ne_null_of_get? hkind

/-- No kind of node has the name of a wrapper, so plain parts are not mistaken for one. -/
theorem Encodes.unwrapPart_eq {raw : Datum} {n : Node} (h : Encodes raw n) : unwrapPart raw = raw := by
  obtain ⟨kind, hkind⟩ := h.exists_kind
  unfold unwrapPart
  rw [hkind]
  cases kind <;> rfl

theorem EncodesPart.encodes {d : Datum} {part : Node} (h : EncodesPart d part) : Encodes (unwrapPart d) part := by
  cases h with
  | plain hpart =>
    rw [hpart.unwrapPart_eq]
    exact hpart
  | wrapped hkind hpart =>
    unfold unwrapPart
    rw [hkind]
    exact hpart

/-! ## §3. Attempts. -/

/-- Make something, or give up because it is nested too deeply.  Either way there is nothing to note. -/
def attempt {α : Type} (fits : Bool) (a : α) : Builder α := if fits then pure a else throw .tooDeep

theorem run_attempt {α : Type} (fits : Bool) (a : α) (notes : Notes) :
    (attempt fits a).run notes = (if fits then .ok a else .error .tooDeep, notes) := by
  cases fits <;> rfl

section Attempts

variable {α β : Type} {fits fits' : Bool}

/-- One attempt after the other. -/
theorem attempt_andThen {b : Builder α} {a : α} {f : α → Builder β} {z : β} (hb : b = attempt fits a)
    (hf : f a = attempt fits' z) : b >>= f = attempt (fits && fits') z := by
  subst hb
  cases fits with
  | true => exact hf
  | false => rfl

/-- What is put together from the outcome of an attempt. -/
theorem attempt_map {b : Builder α} {a : α} (hb : b = attempt fits a) (whole : α → β) :
    (b >>= fun x => pure (whole x)) = attempt fits (whole a) := by
  have hwhole : (b >>= fun x => pure (whole x)) = attempt (fits && true) (whole a) := attempt_andThen hb rfl
  rwa [Bool.and_true] at hwhole

theorem attempt_mapM {make : α → Builder β} {fitsIn : β → Bool} {l : List α} {bs : List β}
    (h : List.Forall₂ (fun a b => make a = attempt (fitsIn b) b) l bs) : l.mapM make = attempt (bs.all fitsIn) bs := by
  induction h with
  | nil => rfl
  | @cons a b l bs ha _ ih =>
    rw [List.mapM_cons, List.all_cons]
    exact attempt_andThen ha (attempt_map ih (b :: ·))

end Attempts

/-! ## §4. Fields. -/

section Fields

variable {make : Datum → Builder Node} {fits : Node → Bool}
  (h : ∀ {d : Datum} {n : Node}, Encodes d n → make d = attempt (fits n) n)
include h

theorem requiredPart_of_encodes {raw : Datum} {n : Node} (part : Part) (hpart : Encodes (raw.field part.name) n)
    (kind : Kind) : requiredPart make raw kind part = attempt (fits n) n := by
  obtain ⟨habsent, -⟩ | ⟨-, hmade⟩ := requiredPart_cases make raw kind part
  · rw [present_of_ne_null hpart.ne_null] at habsent
    cases habsent
  · rw [hmade, h hpart]

theorem nodes_of_list {d : Datum} {l : List Datum} {ns : List Node} (hlist : d = .list l)
    (heach : List.Forall₂ Encodes l ns) : nodes make d = attempt (ns.all fits) ns := by
  subst hlist
  exact attempt_mapM (heach.imp fun _ _ hn => h hn)

theorem statements_of_body {d : Datum} {body : List Node} (hbody : EncodesBody d body) :
    statements make d = attempt (body.all fits) body := by
  obtain ⟨hkind, hlist, heach⟩ := hbody
  rw [statements_of_block make hkind]
  exact nodes_of_list h hlist heach

theorem parts_of_list {d : Datum} {l : List Datum} {ns : List Node} (hlist : d = .list l)
    (heach : List.Forall₂ EncodesPart l ns) : parts make d = attempt (ns.all fits) ns := by
  subst hlist
  cases heach with
  | nil => rfl
  | cons hfirst hrest =>
    -- a list that is not empty counts as true, and its items are its members
    exact attempt_mapM ((List.Forall₂.cons hfirst hrest).imp fun _ _ hn => h hn.encodes)

/-- Two operands. -/
theorem operands_of_encodes {raw : Datum} {left right : Node} (hleft : Encodes (raw.field "left") left)
    (hright : Encodes (raw.field "right") right) (kind : Kind) (whole : Node → Node → Node) :
    (do
      let left ← requiredPart make raw kind .left
      let right ← requiredPart make raw kind .right
      return whole left right) = attempt (fits left && fits right) (whole left right) :=
  attempt_andThen (requiredPart_of_encodes h .left hleft kind)
    (attempt_map (requiredPart_of_encodes h .right hright kind) _)

/-- **Nodes of every kind.**  The attempt fits if the parts of the node do. -/
theorem buildKind_of_encodes {raw : Datum} {n : Node} (hraw : Encodes raw n) :
    ∃ kind, OfKind raw kind ∧ buildKind make raw kind = attempt (n.children.all fits) n := by
  cases hraw with
  | var hkind hname => exact ⟨.var, hkind, by rw [buildKind, hname.nameOf_eq]; rfl⟩
  | string hkind hvalue => exact ⟨.string, hkind, by rw [buildKind, hvalue]; rfl⟩
  | offsetLookup hkind hname hoffset =>
    refine ⟨.offsetLookup, hkind, ?_⟩
    rw [buildKind, hname.nameOf_eq]
    cases hoffset with
    | absent hnull =>
      rw [hnull]
      rfl
    | present hoffset =>
      split
      · rename_i hnull
        exact absurd hnull hoffset.ne_null
      · rw [Node.children, Option.toList_some, List.all_cons, List.all_nil, Bool.and_true]
        exact attempt_map (h hoffset) _
  | @bin _ operator left right hkind hoperator hleft hright =>
    refine ⟨.bin, hkind, ?_⟩
    rw [buildKind, hoperator, Node.children, List.all_cons, List.all_cons, List.all_nil, Bool.and_true]
    exact operands_of_encodes h hleft hright .bin (.bin operator)
  | @call _ name _ arguments hkind hname hlist harguments =>
    refine ⟨.call, hkind, ?_⟩
    rw [buildKind, hname.nameOf_eq]
    exact attempt_map (nodes_of_list h hlist harguments) (Node.call name)
  | encapsed hkind hlist hparts => exact ⟨.encapsed, hkind, attempt_map (parts_of_list h hlist hparts) Node.encapsed⟩
  | assign hkind hleft hright =>
    refine ⟨.assign, hkind, ?_⟩
    rw [buildKind, Node.children, List.all_cons, List.all_cons, List.all_nil, Bool.and_true]
    exact operands_of_encodes h hleft hright .assign .assign
  | echo hkind hlist harguments => exact ⟨.echo, hkind, attempt_map (nodes_of_list h hlist harguments) Node.echo⟩
  | @cond _ test body alternate hkind htest hbody halternate =>
    refine ⟨.cond, hkind, ?_⟩
    rw [buildKind, Node.children, List.all_cons, List.all_append]
    refine attempt_andThen (requiredPart_of_encodes h .test htest .cond)
      (attempt_andThen (statements_of_body h hbody) ?_)
    -- an alternative that is left out is not the same as one without statements
    cases halternate with
    | absent hnull =>
      rw [hnull]
      rfl
    | present hother =>
      split
      · rename_i hnull
        exact absurd hnull hother.ne_null
      · exact attempt_map (statements_of_body h hother) _
  | loop hkind htest hbody =>
    refine ⟨.loop, hkind, ?_⟩
    rw [buildKind, Node.children, List.all_cons]
    exact attempt_andThen (requiredPart_of_encodes h .test htest .loop)
      (attempt_map (statements_of_body h hbody) _)
  | block hkind hlist hchildren => exact ⟨.block, hkind, attempt_map (nodes_of_list h hlist hchildren) Node.block⟩

end Fields

/-- **Building the encoding of a tree** gives the tree, or gives up on its height. -/
theorem build_of_encodes (limit : Nat) :
    ∀ {raw : Datum} {n : Node}, Encodes raw n → build limit raw = attempt (decide (n.height ≤ limit)) n := by
  -- on the limit and not on the tree: the parts are built with one level less, all by the same builder
  induction limit with
  | zero =>
    intro raw n _
    have hheight : ¬ n.height ≤ 0 := by
      rw [Node.height_eq]
      omega
    rw [decide_eq_false hheight]
    rfl
  | succ limit ih =>
    intro raw n hraw
    obtain ⟨kind, hkind, hbuild⟩ := buildKind_of_encodes ih hraw
    have hfits : decide (n.height ≤ limit + 1) = n.children.all fun c => decide (c.height ≤ limit) := by
      rw [Bool.eq_iff_iff, decide_eq_true_iff, Node.height_le_succ_iff, List.all_eq_true]
      simp
    rw [build_of_kind (kind?_eq_some_iff.2 hkind), hbuild, hfits]

/-! ## §5. Every known tree has an encoding. -/

/-- The object of a node of the kind. -/
def encodeAs (kind : Kind) (fields : List (String × Datum)) : Datum :=
  .object (("kind", .text kind.name) :: fields)

/-- The field for a name, which is left out if there is none. -/
def nameField : Option String → List (String × Datum)
  | none => []
  | some x => [("name", .text x)]

mutual

/-- An encoding of the tree, without wrappers and other fields.  Unknown nodes have none. -/
def encode : Node → Datum
  | .unknown .. => .null
  | .var name => encodeAs .var (nameField name)
  | .string value => encodeAs .string [("value", .text value)]
  | .offsetLookup name offset =>
    encodeAs .offsetLookup [("what", .object (nameField name)), ("offset", encodeOffset offset)]
  | .bin operator left right =>
    encodeAs .bin [("type", .text operator), ("left", encode left), ("right", encode right)]
  | .call name arguments =>
    encodeAs .call [("what", .object (nameField name)), ("arguments", .list (encodeAll arguments))]
  | .encapsed parts => encodeAs .encapsed [("value", .list (encodeAll parts))]
  | .assign left right => encodeAs .assign [("left", encode left), ("right", encode right)]
  | .echo arguments => encodeAs .echo [("arguments", .list (encodeAll arguments))]
  | .cond test body alternate =>
    encodeAs .cond [("test", encode test), ("body", encodeAs .block [("children", .list (encodeAll body))]),
      ("alternate", encodeAlternate alternate)]
  | .loop test body =>
    encodeAs .loop [("test", encode test), ("body", encodeAs .block [("children", .list (encodeAll body))])]
  | .block children => encodeAs .block [("children", .list (encodeAll children))]

/-- An encoding of the offset of a read. -/
def encodeOffset : Option Node → Datum
  | none => .null
  | some offset => encode offset

/-- An encoding of the second branch of a conditional. -/
def encodeAlternate : Option (List Node) → Datum
  | none => .null
  | some body => encodeAs .block [("children", .list (encodeAll body))]

/-- Encodings of nodes in a row. -/
def encodeAll : List Node → List Datum
  | [] => []
  | n :: rest => encode n :: encodeAll rest

end

theorem ofKind_encodeAs (kind : Kind) (fields : List (String × Datum)) : OfKind (encodeAs kind fields) kind := rfl

theorem named_nameField (name : Option String) : Named (.object (nameField name)) name := by
  cases name with
  | none => exact named_none rfl
  | some x => exact named_some rfl

/-- The name of a variable stands beside its kind. -/
theorem named_encodeAs (kind : Kind) (name : Option String) : Named (encodeAs kind (nameField name)) name := by
  cases name with
  | none => exact named_none rfl
  | some x => exact named_some rfl

theorem forall₂_encodeAll {R : Datum → Node → Prop} {ns : List Node} (h : ∀ n ∈ ns, R (encode n) n) :
    List.Forall₂ R (encodeAll ns) ns := by
  induction ns with
  | nil => exact .nil
  | cons n rest ih => exact .cons (h n List.mem_cons_self) (ih fun m hm => h m (List.mem_cons_of_mem n hm))

/-- **Every tree without unknown nodes has an encoding.** -/
theorem encodes_encode {n : Node} (h : n.Known) : Encodes (encode n) n := by
  induction n using Node.induction with
  | step n ih =>
    obtain ⟨hroot, hchildren⟩ := Node.known_iff.1 h
    have hparts : ∀ c ∈ n.children, Encodes (encode c) c := fun c hc => ih c hc (hchildren c hc)
    have hblock : ∀ {ns : List Node}, (∀ c ∈ ns, c ∈ n.children) →
        EncodesBody (encodeAs .block [("children", .list (encodeAll ns))]) ns := by
      intro ns hns
      exact .block (ofKind_encodeAs _ _) rfl (forall₂_encodeAll fun c hc => hparts c (hns c hc))
    cases n with
    | unknown => cases hroot
    | var name => exact .var (ofKind_encodeAs _ _) (named_encodeAs .var name)
    | string value => exact .string (ofKind_encodeAs _ _) rfl
    | offsetLookup name offset =>
      refine .offsetLookup (ofKind_encodeAs _ _) (named_nameField name) ?_
      cases offset with
      | none => exact .absent rfl
      | some offset => exact .present (hparts offset (by simp [Node.children]))
    | bin operator left right =>
      exact .bin (ofKind_encodeAs _ _) rfl (hparts left (by simp [Node.children])) (hparts right (by simp [Node.children]))
    | call name arguments =>
      exact .call (ofKind_encodeAs _ _) (named_nameField name) rfl (forall₂_encodeAll hparts)
    | encapsed parts =>
      exact .encapsed (ofKind_encodeAs _ _) rfl (forall₂_encodeAll fun c hc => .plain (hparts c hc))
    | assign left right =>
      exact .assign (ofKind_encodeAs _ _) (hparts left (by simp [Node.children])) (hparts right (by simp [Node.children]))
    | echo arguments => exact .echo (ofKind_encodeAs _ _) rfl (forall₂_encodeAll hparts)
    | cond test body alternate =>
      refine .cond (ofKind_encodeAs _ _) (hparts test (by simp [Node.children])) (hblock ?_) ?_
      · exact fun c hc => by simp [Node.children, hc]
      · cases alternate with
        | none => exact .absent rfl
        | some other => exact .present (hblock fun c hc => by simp [Node.children, hc])
    | loop test body =>
      refine .loop (ofKind_encodeAs _ _) (hparts test (by simp [Node.children])) (hblock ?_)
      exact fun c hc => by simp [Node.children, hc]
    | block children => exact .block (ofKind_encodeAs _ _) rfl (forall₂_encodeAll hparts)

/-! ## §6. Encodings in data files. -/

theorem isJson_object {fields : List (String × Datum)} (h : ∀ e ∈ fields, e.2.isJson = true) :
    (Datum.object fields).isJson = true := by
  refine Datum.isJson_map_iff.2 fun e he => ?_
  obtain ⟨field, hfield, rfl⟩ := List.mem_map.1 he
  exact ⟨rfl, h field hfield⟩

theorem isJson_encodeAs {kind : Kind} {fields : List (String × Datum)} (h : ∀ e ∈ fields, e.2.isJson = true) :
    (encodeAs kind fields).isJson = true :=
  isJson_object (List.forall_mem_cons.2 ⟨rfl, h⟩)

theorem isJson_nameField {name : Option String} : ∀ e ∈ nameField name, e.2.isJson = true := by
  cases name with
  | none => exact List.forall_mem_nil _
  | some value => exact List.forall_mem_singleton.2 rfl

theorem isJson_list_encodeAll {ns : List Node} (h : ∀ n ∈ ns, (encode n).isJson = true) :
    (Datum.list (encodeAll ns)).isJson = true := by
  rw [Datum.isJson]
  induction ns with
  | nil => rfl
  | cons n rest ih =>
    rw [encodeAll, Datum.allJson, h n List.mem_cons_self, ih fun m hm => h m (List.mem_cons_of_mem n hm)]
    rfl

/-- A data file can hold the encoding. -/
theorem isJson_encode (n : Node) : (encode n).isJson = true := by
  induction n using Node.induction with
  | step n ih =>
    have hlist : ∀ {ns : List Node}, (∀ c ∈ ns, c ∈ n.children) → (Datum.list (encodeAll ns)).isJson = true :=
      fun hns => isJson_list_encodeAll fun c hc => ih c (hns c hc)
    have hbody : ∀ {ns : List Node}, (∀ c ∈ ns, c ∈ n.children) →
        (encodeAs .block [("children", .list (encodeAll ns))]).isJson = true := by
      intro ns hns
      exact isJson_encodeAs (by simpa using hlist hns)
    have htext : ∀ x : String, (Datum.text x).isJson = true := fun _ => rfl
    cases n with
    | unknown => rfl
    | var name => exact isJson_encodeAs isJson_nameField
    | string value => exact isJson_encodeAs (by simpa using htext value)
    | offsetLookup name offset =>
      have hoffset : (encodeOffset offset).isJson = true := by
        cases offset with
        | none => rfl
        | some offset => exact ih offset (by simp [Node.children])
      exact isJson_encodeAs (by simpa using ⟨isJson_object isJson_nameField, hoffset⟩)
    | bin operator left right =>
      have hleft := ih left (by simp [Node.children])
      have hright := ih right (by simp [Node.children])
      exact isJson_encodeAs (by simpa using ⟨htext operator, hleft, hright⟩)
    | call name arguments =>
      have harguments := hlist fun c (hc : c ∈ arguments) => hc
      exact isJson_encodeAs (by simpa using ⟨isJson_object isJson_nameField, harguments⟩)
    | encapsed parts => exact isJson_encodeAs (by simpa using hlist fun c (hc : c ∈ parts) => hc)
    | assign left right =>
      have hleft := ih left (by simp [Node.children])
      have hright := ih right (by simp [Node.children])
      exact isJson_encodeAs (by simpa using ⟨hleft, hright⟩)
    | echo arguments => exact isJson_encodeAs (by simpa using hlist fun c (hc : c ∈ arguments) => hc)
    | cond test body alternate =>
      have htest := ih test (by simp [Node.children])
      have hthen := hbody fun c (hc : c ∈ body) => by simp [Node.children, hc]
      have helse : (encodeAlternate alternate).isJson = true := by
        cases alternate with
        | none => rfl
        | some other => exact hbody fun c (hc : c ∈ other) => by simp [Node.children, hc]
      exact isJson_encodeAs (by simpa using ⟨htest, hthen, helse⟩)
    | loop test body =>
      have htest := ih test (by simp [Node.children])
      have hthen := hbody fun c (hc : c ∈ body) => by simp [Node.children, hc]
      exact isJson_encodeAs (by simpa using ⟨htest, hthen⟩)
    | block children => exact isJson_encodeAs (by simpa using hlist fun c (hc : c ∈ children) => hc)

/-! ## §7. Only known trees have encodings. -/

theorem exists_of_forall₂ {R : Datum → Node → Prop} {l : List Datum} {ns : List Node} (h : List.Forall₂ R l ns)
    {c : Node} (hc : c ∈ ns) : ∃ d, R d c := by
  induction h with
  | nil => cases hc
  | cons hn _ ih =>
    rcases List.mem_cons.1 hc with rfl | hc
    · exact ⟨_, hn⟩
    · exact ih hc

theorem EncodesBody.exists_of_mem {d : Datum} {body : List Node} (h : EncodesBody d body) {c : Node} (hc : c ∈ body) :
    ∃ d, Encodes d c := by
  obtain ⟨-, -, heach⟩ := h
  exact exists_of_forall₂ heach hc

/-- The nodes below an encoded node are encoded too. -/
theorem Encodes.exists_of_child {raw : Datum} {n c : Node} (h : Encodes raw n) (hc : c ∈ n.children) :
    ∃ d, Encodes d c := by
  cases h with
  | var | string => cases hc
  | offsetLookup hkind hname hoffset =>
    cases hoffset with
    | absent => cases hc
    | present hoffset =>
      obtain rfl := List.mem_singleton.1 hc
      exact ⟨_, hoffset⟩
  | bin _ _ hleft hright | assign _ hleft hright =>
    rcases List.mem_cons.1 hc with rfl | hc
    · exact ⟨_, hleft⟩
    · obtain rfl := List.mem_singleton.1 hc
      exact ⟨_, hright⟩
  | call _ _ _ heach | echo _ _ heach | block _ _ heach => exact exists_of_forall₂ heach hc
  | encapsed _ _ heach =>
    obtain ⟨d, hd⟩ := exists_of_forall₂ heach hc
    exact ⟨_, hd.encodes⟩
  | cond _ htest hbody halternate =>
    rcases List.mem_cons.1 hc with rfl | hc
    · exact ⟨_, htest⟩
    rcases List.mem_append.1 hc with hc | hc
    · exact hbody.exists_of_mem hc
    · cases halternate with
      | absent => cases hc
      | present hother => exact hother.exists_of_mem hc
  | loop _ htest hbody =>
    rcases List.mem_cons.1 hc with rfl | hc
    · exact ⟨_, htest⟩
    · exact hbody.exists_of_mem hc

theorem Encodes.known {raw : Datum} {n : Node} (h : Encodes raw n) : n.Known := by
  induction n using Node.induction generalizing raw with
  | step n ih =>
    refine Node.known_iff.2 ⟨?_, fun c hc => ?_⟩
    · -- there is no rule for an unknown node
      cases h <;> rfl
    · obtain ⟨d, hd⟩ := h.exists_of_child hc
      exact ih c hc hd

/-- **Building inverts the encoding of trees.**  The trees that have an encoding, in a data file, are those without
unknown nodes.  Whatever names, wrappers and other fields an encoding has, building it returns exactly the tree, as
long as that is not nested too deeply.  No note is left in either case: the counts and the events stay the same. -/
theorem build_inverts_encoding (n : Node) :
    (n.Known ↔ ∃ raw : Datum, raw.isJson = true ∧ Encodes raw n) ∧
    ∀ raw : Datum, Encodes raw n → ∀ (limit : Nat) (notes : Notes),
      (build limit raw).run notes = (if n.height ≤ limit then .ok n else .error .tooDeep, notes) := by
  refine ⟨⟨fun h => ?_, fun ⟨raw, _, hraw⟩ => hraw.known⟩, fun raw hraw limit notes => ?_⟩
  · exact ⟨encode n, isJson_encode n, encodes_encode h⟩
  · rw [build_of_encodes limit hraw, run_attempt]
    simp only [decide_eq_true_eq]

/-- A branch with places of its parts in the source.  One part of the text is wrapped, the call has no name, and there
is nothing in the second branch. -/
def annotatedBranch : Datum :=
  .object
    [("loc", .object [("line", .int 3)]),
     ("kind", .text "if"),
     ("test", .object
       [("type", .text "=="), ("kind", .text "bin"), ("parenthesized", .bool true),
        ("left", .object [("kind", .text "variable"), ("name", .text "k")]),
        ("right", .object [("kind", .text "string"), ("value", .text "raw"), ("raw", .text "'raw'")])]),
     ("body", .object
       [("kind", .text "block"),
        ("children", .list
          [.object
            [("kind", .text "assign"), ("operator", .text "="),
             ("left", .object [("kind", .text "variable"), ("name", .text "q"), ("curly", .bool false)]),
             ("right", .object
               [("kind", .text "encapsed"), ("type", .text "string"),
                ("value", .list
                  [.object [("kind", .text "string"), ("value", .text "id=")],
                   .object
                    [("kind", .text "encapsedpart"), ("syntax", .null),
                     ("expression", .object [("kind", .text "variable"), ("name", .text "x")])]])])],
           .object
            [("kind", .text "echo"),
             ("arguments", .list
               [.object
                 [("kind", .text "call"),
                  ("arguments", .list
                    [.object
                      [("kind", .text "offsetlookup"), ("what", .object [("name", .text "_GET")])]])]])]])]),
     ("alternate", .object [("children", .list []), ("kind", .text "block")])]

/-- The tree of that branch. -/
def annotatedBranchTree : Node :=
  .cond (.bin "==" (.var (some "k")) (.string "raw"))
    [.assign (.var (some "q")) (.encapsed [.string "id=", .var (some "x")]),
      .echo [.call none [.offsetLookup (some "_GET") none]]]
    (some [])

theorem annotatedBranch_built :
    let notes : Notes := { diagnostics := Tally.empty.record "missing_test" }
    Encodes annotatedBranch annotatedBranchTree ∧ annotatedBranchTree.Known ∧
      (build 4 annotatedBranch).run notes = (.ok annotatedBranchTree, notes) ∧
      (build 3 annotatedBranch).run notes = (.error .tooDeep, notes) := by
  intro notes
  have hraw : Encodes annotatedBranch annotatedBranchTree := by
    refine .cond rfl (.bin rfl rfl (.var rfl (named_some rfl)) (.string rfl rfl)) (.block rfl rfl ?_)
      (.present (.block rfl rfl .nil))
    refine .cons (.assign rfl (.var rfl (named_some rfl)) (.encapsed rfl rfl ?_)) (.cons (.echo rfl rfl ?_) .nil)
    · exact .cons (.plain (.string rfl rfl)) (.cons (.wrapped rfl (.var rfl (named_some rfl))) .nil)
    · refine .cons (.call rfl (named_none rfl) rfl (.cons ?_ .nil)) .nil
      exact .offsetLookup rfl (named_some rfl) (.absent rfl)
  have hheight : annotatedBranchTree.height = 4 := by
    simp [annotatedBranchTree, Node.height_eq, Node.children]
  obtain ⟨hknown, hbuild⟩ := build_inverts_encoding annotatedBranchTree
  refine ⟨hraw, hknown.2 ⟨annotatedBranch, by decide +kernel, hraw⟩, ?_, ?_⟩
  · rw [hbuild annotatedBranch hraw, hheight]
    rfl
  · rw [hbuild annotatedBranch hraw, hheight]
    rfl

end Syntax

end TaintFlow
