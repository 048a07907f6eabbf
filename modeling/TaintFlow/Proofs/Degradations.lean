/-
  TaintFlow.Proofs.Degradations
  ─────────────────────────────
  **What building a value comes to: a tree in which every degradation is counted, or the first fault.**

  Degradations are counted while the parts of a tree are made, and the tree is put together from
  what the parts return.  The two agree:

    • `Node.nodes`, `Node.reasons` — all nodes of a tree, and the reasons of the unknown ones, in the
      order in which they are made,
    • `ownFault?`, `fault?` — what is wrong with a value itself, and what makes its building fail: the
      first fault that is met on the way,
    • `Records` — a builder fails with a fault, or it has recorded the reasons of what it returns,
    • `makes_build` — this is so for the values of all kinds,
    • `degradations_counted_exactly` — the counts grow by the numbers of unknown nodes.
-/
import TaintFlow.Proofs.Building
import TaintFlow.Proofs.Tree

namespace TaintFlow

/-! ## §1. Unknown nodes of a tree. -/

namespace Node

/-- The node and all nodes below it. -/
def nodes (n : Node) : List Node := n :: n.children.attach.flatMap fun c => c.val.nodes
termination_by sizeOf n
decreasing_by exact sizeOf_lt_of_mem_children c.property

theorem nodes_eq (n : Node) : n.nodes = n :: n.children.flatMap nodes := by
  rw [nodes]
  simp

/-- The word under which an unknown node is counted. -/
def reason? : Node → Option String
  | .unknown _ reason => some reason.reason
  | _ => none

/-- How many of the nodes are unknown ones that are counted under the word. -/
def unknownCount (reason : String) (ns : List Node) : Nat := ns.countP (·.reason? == some reason)

/-- The reasons of the unknown nodes of a tree. -/
def reasons (n : Node) : List String := n.nodes.filterMap reason?

theorem reasons_eq (n : Node) : n.reasons = n.reason?.toList ++ n.children.flatMap reasons := by
  unfold reasons
  rw [nodes_eq, List.filterMap_cons, List.filterMap_flatMap]
  cases n.reason? <;> rfl

/-- The reasons of a tree with a known root are those of its parts. -/
theorem reasons_of_known {n : Node} (h : n.reason? = none) : n.reasons = n.children.flatMap reasons := by
  rw [reasons_eq, h]
  rfl

/-- The reasons of trees in a row tell how many unknown nodes they have. -/
theorem count_reasons (ns : List Node) (reason : String) :
    (ns.flatMap reasons).count reason = unknownCount reason (ns.flatMap nodes) := by
  unfold unknownCount reasons
  rw [← List.filterMap_flatMap, List.count_filterMap]

end Node

/-- All nodes of a tree. -/
def Program.nodes (p : Program) : List Node := p.children.flatMap Node.nodes

namespace Syntax

/-! ## §2. Faults. -/

/-- What is wrong with the parts of an interpolated text: they cannot be walked over. -/
def partsFault? (d : Datum) : Option BuildError :=
  if d.truth = true ∧ d.members? = none then some .partsNotWalkable else none

/-- What is wrong with a literal or an operator: it cannot be written. -/
def textFault? (d : Datum) : Option BuildError := if d.writable then none else some .unwritable

/-- What an object of a kind is refused for by itself. -/
def kindFault? (raw : Datum) : Kind → Option BuildError
  | .encapsed => partsFault? (raw.field "value")
  | .bin => textFault? (raw.field "type")
  | .string => textFault? (raw.field "value")
  | _ => none

/-- What a value is refused for by itself. -/
def ownFault? (raw : Datum) : Option BuildError := (kind? raw).bind (kindFault? raw)

theorem textFault?_eq_some_iff {d : Datum} {e : BuildError} :
    textFault? d = some e ↔ e = .unwritable ∧ d.writable = false := by
  unfold textFault?
  cases d.writable <;> simp [eq_comm]

theorem partsFault?_eq_some_iff {d : Datum} {e : BuildError} :
    partsFault? d = some e ↔ e = .partsNotWalkable ∧ d.truth = true ∧ d.members? = none := by
  unfold partsFault?
  split
  · rename_i h
    simp [h, eq_comm]
  · rename_i h
    simp [h]

/-- **What a value is refused for by itself is what builders stumble over.** -/
theorem ownFault?_eq_some_iff {raw : Datum} {e : BuildError} : ownFault? raw = some e ↔ Faulty e raw := by
  constructor
  · intro h
    obtain ⟨kind, hkind, hfault⟩ := Option.bind_eq_some_iff.1 h
    cases kind with
    | encapsed =>
      obtain ⟨rfl, htruth, hmembers⟩ := partsFault?_eq_some_iff.1 hfault
      exact ⟨hkind, htruth, hmembers⟩
    | bin | string =>
      obtain ⟨rfl, hwritable⟩ := textFault?_eq_some_iff.1 hfault
      exact ⟨_, _, hkind, rfl, hwritable⟩
    | _ => cases hfault
  · intro h
    cases e with
    | partsNotWalkable =>
      refine Option.bind_eq_some_iff.2 ⟨_, Unwalkable.kind h, ?_⟩
      exact partsFault?_eq_some_iff.2 ⟨rfl, Unwalkable.truth h, Unwalkable.members h⟩
    | unwritable =>
      obtain ⟨kind, name, hkind, hname, hwritable⟩ := Unwritable.field h
      refine Option.bind_eq_some_iff.2 ⟨kind, hkind, ?_⟩
      cases kind with
      | bin | string =>
        cases hname
        exact textFault?_eq_some_iff.2 ⟨rfl, hwritable⟩
      | _ => cases hname
    | tooDeep => cases h

/-- The values that the parts of a value's node are made of, in order. -/
def insides (raw : Datum) : List Datum := (kind? raw).elim [] (positions raw)

theorem mem_insides {raw d : Datum} : d ∈ insides raw ↔ Inside raw d := by
  unfold insides Inside
  cases kind? raw <;> simp

/-- **What makes the building of a value fail**, if anything does: too deep a nesting, what the value is refused for by
itself, or else the first fault inside. -/
def fault? : (limit : Nat) → Datum → Option BuildError
  | 0, _ => some .tooDeep
  | limit + 1, raw => (ownFault? raw).or ((insides raw).findSome? (fault? limit))

/-! ## §3. What builders record. -/

/-- **A builder that starts after the reasons `before` have been recorded** fails with the given fault, or it has
none and returns something whose reasons are then recorded.  Both are counted from the same tally. -/
def Records {α : Type} (fault : Option BuildError) (before : List String) (b : Builder α)
    (recorded : α → List String) : Prop :=
  ∀ (t : Tally) (notes : Notes), notes.diagnostics = before.foldl Tally.record t →
    (∀ a after, b.run notes = (.ok a, after) →
      fault = none ∧ after.diagnostics = (recorded a).foldl Tally.record t) ∧
    ∀ e after, b.run notes = (.error e, after) → fault = some e

/-- The builder makes a node and records its reasons behind the earlier ones. -/
def Makes (fault : Option BuildError) (b : Builder Node) : Prop :=
  ∀ before, Records fault before b fun n => before ++ n.reasons

/-- The builder makes several nodes and records their reasons behind the earlier ones. -/
def MakesAll (fault : Option BuildError) (b : Builder (List Node)) : Prop :=
  ∀ before, Records fault before b fun ns => before ++ ns.flatMap Node.reasons

section Rules

variable {α β : Type} {before : List String}

theorem records_done {a : α} {recorded : α → List String} (h : recorded a = before) :
    Records none before (pure a) recorded := by
  intro t notes hnotes
  refine ⟨fun a' after hrun => ?_, fun e after hrun => ?_⟩
  · cases hrun
    exact ⟨rfl, by rw [hnotes, h]⟩
  · cases hrun

theorem records_refusal {e : BuildError} {recorded : α → List String} :
    Records (some e) before (throw e) recorded := by
  intro t notes hnotes
  refine ⟨fun a after hrun => ?_, fun e' after hrun => ?_⟩
  · cases hrun
  · cases hrun
    rfl

/-- One builder after the other: the second one starts after the reasons of the first. -/
theorem Records.andThen {fault fault' : Option BuildError} {b : Builder α} {f : α → Builder β}
    {first : α → List String} {recorded : β → List String} (hb : Records fault before b first)
    (hf : ∀ a, Records fault' (first a) (f a) recorded) : Records (fault.or fault') before (b >>= f) recorded := by
  intro t notes hnotes
  rw [run_andThen]
  rcases hrun : b.run notes with ⟨e | a, middle⟩
  · obtain rfl := (hb t notes hnotes).2 e middle hrun
    refine ⟨fun c after h => ?_, fun e' after h => ?_⟩
    · cases h
    · cases h
      rfl
  · obtain ⟨rfl, hmiddle⟩ := (hb t notes hnotes).1 a middle hrun
    exact hf a t middle hmiddle

/-- A known node adds no reason to those of its parts. -/
theorem records_known {recorded : List String} {n : Node} (hknown : n.reason? = none)
    (hparts : recorded = before ++ n.children.flatMap Node.reasons) :
    Records none recorded (pure n) fun n => before ++ n.reasons := by
  refine records_done ?_
  rw [Node.reasons_of_known hknown, hparts]

theorem makes_degraded (reason : Degradation) (rawKind : Option String) : Makes none (degrade reason rawKind) := by
  intro before t notes hnotes
  have hreasons : (Node.unknown rawKind reason).reasons = [reason.reason] := by
    rw [Node.reasons_eq]
    rfl
  refine ⟨fun n after hrun => ?_, fun e after hrun => ?_⟩
  · cases hrun
    refine ⟨rfl, ?_⟩
    show notes.diagnostics.record reason.reason
      = (before ++ (Node.unknown rawKind reason).reasons).foldl Tally.record t
    rw [hreasons, List.foldl_append, ← hnotes]
    rfl
  · cases hrun

/-- A text is written without a word, unless it cannot be. -/
theorem records_written (d : Datum) : Records (textFault? d) before (written d) fun _ => before := by
  unfold textFault? written Datum.display?
  split
  · exact records_done rfl
  · exact records_refusal

theorem findSome?_cons_eq_or {γ : Type} (f : α → Option γ) (a : α) (l : List α) :
    (a :: l).findSome? f = (f a).or (l.findSome? f) := by
  rw [List.findSome?_cons]
  cases f a <;> rfl

theorem makesAll_none : MakesAll none (pure []) := fun before => records_done (List.append_nil before)

/-- Nodes that are made one after the other; the first fault counts. -/
theorem makesAll_mapM {make : α → Builder Node} {fault : α → Option BuildError} (h : ∀ a, Makes (fault a) (make a))
    (l : List α) : MakesAll (l.findSome? fault) (l.mapM make) := by
  induction l with
  | nil => exact makesAll_none
  | cons a l ih =>
    intro before
    rw [List.mapM_cons, findSome?_cons_eq_or]
    refine (h a before).andThen fun n => ?_
    rw [← Option.or_none (o := l.findSome? fault)]
    refine (ih (before ++ n.reasons)).andThen fun ns => records_done ?_
    rw [List.flatMap_cons, List.append_assoc]

/-- A node that is put together from others records their reasons. -/
theorem makes_node {fault : Option BuildError} {b : Builder (List Node)} (hb : MakesAll fault b)
    {whole : List Node → Node} (hknown : ∀ ns, (whole ns).reason? = none) (hparts : ∀ ns, (whole ns).children = ns) :
    Makes fault (do return whole (← b)) := by
  intro before
  rw [← Option.or_none (o := fault)]
  refine (hb before).andThen fun ns => records_known (hknown ns) ?_
  rw [hparts]

end Rules

/-! ## §4. Fields. -/

theorem present_of_ne_null {raw : Datum} {name : String} (h : raw.field name ≠ .null) :
    present raw name = [raw.field name] := by
  unfold present
  split
  · rename_i hnull
    exact absurd hnull h
  · rfl

/-- A part that must be there is made if it is, and degraded if it is not. -/
theorem requiredPart_cases (make : Datum → Builder Node) (raw : Datum) (kind : Kind) (part : Part) :
    (present raw part.name = [] ∧ requiredPart make raw kind part = degrade (.missing part) (some kind.name)) ∨
      present raw part.name = [raw.field part.name] ∧ requiredPart make raw kind part = make (raw.field part.name) := by
  unfold present requiredPart Datum.field
  cases hpart : raw.get? part.name with
  | none => exact .inl ⟨rfl, rfl⟩
  | some d =>
    simp only [Option.getD_some]
    split
    · exact .inl ⟨rfl, rfl⟩
    · rename_i hnull
      refine .inr ⟨rfl, ?_⟩
      split
      · rename_i heq
        cases heq
      · rename_i heq
        exact absurd (Option.some.inj heq) hnull
      · rename_i heq
        rw [Option.some.inj heq]

theorem bodyItems_of_block {d : Datum} (h : d.get? "kind" = some (.text "block")) :
    bodyItems d = items (d.field "children") := by
  have hnull : d ≠ .null := fun heq => by
    rw [heq] at h
    cases h
  unfold bodyItems
  simp [h]

theorem bodyItems_of_statement {d : Datum} (hnull : d ≠ .null) (h : d.get? "kind" ≠ some (.text "block")) :
    bodyItems d = [d] := by
  unfold bodyItems
  simp

theorem statements_of_block (make : Datum → Builder Node) {d : Datum} (h : d.get? "kind" = some (.text "block")) :
    statements make d = nodes make (d.field "children") := by
  have hnull : d ≠ .null := fun heq => by
    rw [heq] at h
    cases h
  unfold statements
  simp [h]

theorem statements_of_statement (make : Datum → Builder Node) {d : Datum} (hnull : d ≠ .null)
    (h : d.get? "kind" ≠ some (.text "block")) : statements make d = do return [← make d] := by
  unfold statements
  simp

section Fields

variable {make : Datum → Builder Node} {fault : Datum → Option BuildError} (h : ∀ d, Makes (fault d) (make d))
include h

theorem makes_requiredPart (raw : Datum) (kind : Kind) (part : Part) :
    Makes ((present raw part.name).findSome? fault) (requiredPart make raw kind part) := by
  obtain ⟨hpresent, hmade⟩ | ⟨hpresent, hmade⟩ := requiredPart_cases make raw kind part
  · rw [hpresent, hmade]
    exact makes_degraded _ _
  · rw [hpresent, hmade, findSome?_cons_eq_or, List.findSome?_nil, Option.or_none]
    exact h _

theorem makesAll_nodes (d : Datum) : MakesAll ((items d).findSome? fault) (nodes make d) := by
  cases d with
  | list l => exact makesAll_mapM h l
  | _ => exact makesAll_none

theorem makesAll_statements (d : Datum) : MakesAll ((bodyItems d).findSome? fault) (statements make d) := by
  by_cases hnull : d = .null
  · subst hnull
    exact makesAll_none
  · by_cases hblock : d.get? "kind" = some (.text "block")
    · rw [bodyItems_of_block hblock, statements_of_block make hblock]
      exact makesAll_nodes h (d.field "children")
    · rw [bodyItems_of_statement hnull hblock, statements_of_statement make hnull hblock, findSome?_cons_eq_or,
        List.findSome?_nil]
      intro before
      refine (h d before).andThen fun n => records_done ?_
      rw [List.flatMap_cons, List.flatMap_nil, List.append_nil]

theorem makesAll_parts (d : Datum) :
    MakesAll ((partsFault? d).or ((partItems d).findSome? fault)) (parts make d) := by
  unfold partsFault? parts partItems
  by_cases htruth : d.truth = true
  · cases hmembers : d.members? with
    | none =>
      rw [if_pos ⟨htruth, rfl⟩, Option.some_or, if_pos htruth]
      exact fun before => records_refusal
    | some l =>
      rw [if_neg fun hnone => Option.some_ne_none l hnone.2, Option.none_or, if_pos htruth, if_pos htruth,
        Option.getD_some, List.findSome?_map]
      exact makesAll_mapM (fun item => h (unwrapPart item)) l
  · rw [if_neg fun hwalk => htruth hwalk.1, if_neg htruth, if_neg htruth]
    exact makesAll_none

/-! ## §5. Nodes. -/

/-- A node with two operands. -/
theorem makes_operands (raw : Datum) (kind : Kind) {whole : Node → Node → Node}
    (hknown : ∀ left right, (whole left right).reason? = none)
    (hparts : ∀ left right, (whole left right).children = [left, right]) :
    Makes ((present raw "left" ++ present raw "right").findSome? fault) (do
      let left ← requiredPart make raw kind .left
      let right ← requiredPart make raw kind .right
      return whole left right) := by
  intro before
  rw [List.findSome?_append]
  refine (makes_requiredPart h raw kind .left before).andThen fun left => ?_
  rw [← Option.or_none (o := (present raw "right").findSome? fault)]
  refine (makes_requiredPart h raw kind .right _).andThen fun right => records_known (hknown left right) ?_
  simp [hparts]

/-- **Objects of every kind**: the faults inside come behind the object's own. -/
theorem makes_ofKind (raw : Datum) (kind : Kind) :
    Makes ((kindFault? raw kind).or ((positions raw kind).findSome? fault)) (buildKind make raw kind) := by
  cases kind with
  | assign => exact makes_operands h raw .assign (fun _ _ => rfl) fun _ _ => rfl
  | bin =>
    intro before
    have hoperator : textFault? ((raw.get? "type").getD (.text "")) = kindFault? raw .bin := by
      unfold kindFault? textFault?
      rw [writable_operator]
    refine (hoperator ▸ records_written _).andThen fun operator => ?_
    exact makes_operands h raw .bin (fun _ _ => rfl) (fun _ _ => rfl) before
  | echo => exact makes_node (makesAll_nodes h (raw.field "arguments")) (fun _ => rfl) fun _ => rfl
  | call => exact makes_node (makesAll_nodes h (raw.field "arguments")) (fun _ => rfl) fun _ => rfl
  | block => exact makes_node (makesAll_nodes h (raw.field "children")) (fun _ => rfl) fun _ => rfl
  | loop =>
    intro before
    rw [positions, List.findSome?_append]
    refine (makes_requiredPart h raw .loop .test before).andThen fun test => ?_
    rw [← Option.or_none (o := (bodyItems (raw.field "body")).findSome? fault)]
    refine (makesAll_statements h (raw.field "body") _).andThen fun body => records_known rfl ?_
    simp [Node.children]
  | cond =>
    intro before
    rw [positions, List.findSome?_append, List.findSome?_append]
    refine (makes_requiredPart h raw .cond .test before).andThen fun test => ?_
    refine (makesAll_statements h (raw.field "body") _).andThen fun body => ?_
    -- no alternative at all and one without statements are different nodes
    split
    · rename_i hnull
      rw [hnull]
      exact records_known rfl (by simp [Node.children])
    · rw [← Option.or_none (o := (bodyItems (raw.field "alternate")).findSome? fault)]
      refine (makesAll_statements h (raw.field "alternate") _).andThen fun alternate => records_known rfl ?_
      simp [Node.children]
  | offsetLookup =>
    intro before
    rw [positions, buildKind]
    split
    · rename_i hnull
      rw [present, hnull]
      exact records_known rfl (by simp [Node.children])
    · rename_i hnull
      rw [present_of_ne_null hnull, findSome?_cons_eq_or, List.findSome?_nil]
      refine (h _ before).andThen fun offset => records_known rfl ?_
      simp [Node.children]
  | var => exact fun before => records_known rfl (by simp [Node.children])
  | string =>
    intro before
    rw [positions, buildKind, kindFault?]
    split
    · rename_i hnull
      rw [hnull]
      exact records_known rfl (by simp [Node.children])
    · exact (records_written _).andThen fun text => records_known rfl (by simp [Node.children])
  | encapsed => exact makes_node (makesAll_parts h (raw.field "value")) (fun _ => rfl) fun _ => rfl

end Fields

/-- **Building a value fails with the first fault, or records the reasons of the tree that it returns.** -/
theorem makes_build (limit : Nat) (raw : Datum) : Makes (fault? limit raw) (build limit raw) := by
  -- each level of nesting takes one from the limit, so the builder of the parts is covered by the hypothesis
  induction limit generalizing raw with
  | zero => exact fun before => records_refusal
  | succ limit ih =>
    rw [fault?, ownFault?, insides]
    cases hkind : kind? raw with
    | none =>
      obtain ⟨reason, rawKind, heq⟩ := build_of_no_kind hkind limit
      rw [heq]
      exact makes_degraded reason rawKind
    | some kind =>
      rw [build_of_kind hkind]
      exact makes_ofKind ih raw kind

/-! ## §6. Counts. -/

/-- The reasons of what is returned have been recorded, whatever the notes were. -/
theorem Records.diagnostics {α : Type} {fault : Option BuildError} {b : Builder α} {recorded : α → List String}
    (hb : Records fault [] b recorded) {notes after : Notes} {a : α} (hrun : b.run notes = (.ok a, after)) :
    after.diagnostics = (recorded a).foldl Tally.record notes.diagnostics :=
  ((hb notes.diagnostics notes rfl).1 a after hrun).2

/-- Trees in a row are counted by their unknown nodes. -/
theorem count_mapM_build {limit : Nat} {raws : List Datum} {notes after : Notes} {ns : List Node}
    (hrun : (raws.mapM (build limit)).run notes = (.ok ns, after)) (reason : String) :
    after.diagnostics.count reason
      = notes.diagnostics.count reason + Node.unknownCount reason (ns.flatMap Node.nodes) := by
  rw [((makesAll_mapM (makes_build limit) raws) []).diagnostics hrun, Tally.count_foldl_record, List.nil_append,
    Node.count_reasons]

/-- **Every degradation is counted, and nothing else is**: a word's count grows by the number of unknown nodes with that
word, at any depth of the tree that is returned. -/
theorem degradations_counted_exactly (reason : String) :
    (∀ (limit : Nat) (raw : Datum) (notes after : Notes) (n : Node), (build limit raw).run notes = (.ok n, after) →
      after.diagnostics.count reason = notes.diagnostics.count reason + Node.unknownCount reason n.nodes) ∧
    ∀ (limits : Limits) (data : Datum) (children : List Datum) (notes after : Notes) (p : Program),
      data.field "children" = .list children → load limits data notes = (.ok p, after) →
      after.diagnostics.count reason = notes.diagnostics.count reason + Node.unknownCount reason p.nodes := by
  refine ⟨fun limit raw notes after n hrun => ?_, fun limits data children notes after p hchildren hload => ?_⟩
  · rw [(makes_build limit raw []).diagnostics hrun, Tally.count_foldl_record, List.nil_append]
    have hcount := Node.count_reasons [n] reason
    rw [List.flatMap_singleton, List.flatMap_singleton] at hcount
    rw [hcount]
  · rw [load_of_children hchildren] at hload
    rcases hrun : (children.mapM (build limits.tree)).run notes with ⟨e | ns, after'⟩
    · rw [hrun] at hload
      cases hload
    · rw [hrun] at hload
      cases hload
      exact count_mapM_build hrun reason

/-- A branch without a test.  It assigns an unrecognised place of an array to a number, or else it has a text and a
printed interpolation for its statements, of two letters. -/
def raggedBranch : Datum :=
  .object
    [("kind", .text "if"),
     ("body", .object
       [("kind", .text "assign"), ("left", .int 5),
        ("right", .object [("kind", .text "offsetlookup"), ("offset", .object [("kind", .text "lambda")])])]),
     ("alternate", .object
       [("kind", .text "block"),
        ("children", .list
          [.text "x",
           .object
             [("kind", .text "echo"),
              ("arguments", .list [.object [("kind", .text "encapsed"), ("value", .text "ab")]])]])])]

/-- That branch, with nothing at all behind it. -/
def raggedTree : Datum := .object [("children", .list [raggedBranch, .null])]

theorem raggedTree_counted :
    (∃ n after, (build 4 raggedBranch).run {} = (.ok n, after) ∧ Node.unknownCount "non_object_node" n.nodes = 4) ∧
    -- the tree is loaded twice, and the second counts come on top of the first
    ∃ p after, load .standard raggedTree (load .standard raggedTree).2 = (.ok p, after) ∧
      (load .standard raggedTree).2.diagnostics.count "non_object_node" = 5 ∧
      Node.unknownCount "non_object_node" p.nodes = 5 ∧ after.diagnostics.count "non_object_node" = 10 := by
  let first := (load .standard raggedTree).2
  obtain ⟨n, hn⟩ : ∃ n, ((build 4 raggedBranch).run {}).1 = .ok n := ⟨_, rfl⟩
  obtain ⟨p, hp⟩ : ∃ p, (load .standard raggedTree first).1 = .ok p := ⟨_, rfl⟩
  have hbuild : (build 4 raggedBranch).run {} = (.ok n, ((build 4 raggedBranch).run {}).2) := Prod.ext hn rfl
  have hload : load .standard raggedTree first = (.ok p, (load .standard raggedTree first).2) := Prod.ext hp rfl
  have hnone : ({} : Notes).diagnostics.count "non_object_node" = 0 := rfl
  have hfour : ((build 4 raggedBranch).run {}).2.diagnostics.count "non_object_node" = 4 := by decide +kernel
  have hfive : first.diagnostics.count "non_object_node" = 5 := by decide +kernel
  have hten : (load .standard raggedTree first).2.diagnostics.count "non_object_node" = 10 := by decide +kernel
  refine ⟨⟨n, _, hbuild, ?_⟩, p, _, hload, hfive, ?_, hten⟩
  · have hcount := (degradations_counted_exactly "non_object_node").1 4 raggedBranch {} _ n hbuild
    omega
  · have hcount := (degradations_counted_exactly "non_object_node").2 .standard raggedTree _ first _ p rfl hload
    omega

end Syntax

end TaintFlow
