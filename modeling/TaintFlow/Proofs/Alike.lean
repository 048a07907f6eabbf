/-
  TaintFlow.Proofs.Alike
  ──────────────────────
  **Trees that evaluation cannot tell apart.**

  Evaluation reads some parts of a tree only.  It never looks into a statement that stands in the
  place of an expression, nor into the offset of a read.  So a change inside of these parts shows
  nowhere:

    • `Node.Alike` — the trees differ in nothing that evaluation reads,
    • `Node.Alike.evaluate` — they are evaluated alike,
    • `Node.Alike.guardOf` — as tests they guard with the same literal,
    • `execute_assign_alike`, `execute_echo_alike` — statements without a body, made of such trees.
-/
import TaintFlow.Proofs.Statement

namespace TaintFlow

/-! ## §1. The relation. -/

/-- **The trees differ in nothing that evaluation reads.**  It never looks into statements, nor into the offset
of a read. -/
inductive Node.Alike : Node → Node → Prop where
  | unknown {rawKind rawKind' : Option String} {reason reason' : Degradation} :
      Alike (.unknown rawKind reason) (.unknown rawKind' reason')
  | var (name : Option String) : Alike (.var name) (.var name)
  | string (value : String) : Alike (.string value) (.string value)
  | offsetLookup (name : Option String) {offset offset' : Option Node} :
      Alike (.offsetLookup name offset) (.offsetLookup name offset')
  | bin (operator : String) {left right left' right' : Node} : Alike left left' → Alike right right' →
      Alike (.bin operator left right) (.bin operator left' right')
  | call (name : Option String) {arguments arguments' : List Node} : List.Forall₂ Alike arguments arguments' →
      Alike (.call name arguments) (.call name arguments')
  | encapsed {parts parts' : List Node} : List.Forall₂ Alike parts parts' → Alike (.encapsed parts) (.encapsed parts')
  | assign {left right left' right' : Node} : Alike (.assign left right) (.assign left' right')
  | echo {arguments arguments' : List Node} : Alike (.echo arguments) (.echo arguments')
  | cond {test test' : Node} {body body' : List Node} {alternate alternate' : Option (List Node)} :
      Alike (.cond test body alternate) (.cond test' body' alternate')
  | loop {test test' : Node} {body body' : List Node} : Alike (.loop test body) (.loop test' body')
  | block {children children' : List Node} : Alike (.block children) (.block children')

/-- A literal guards a test that compares it with a variable, on either side. -/
theorem guardedLiteral?_eq_some_iff {n : Node} {value : String} :
    guardedLiteral? n = some value ↔ ∃ operator ∈ equalityOperators, ∃ name,
      n = .bin operator (.var name) (.string value) ∨ n = .bin operator (.string value) (.var name) := by
  constructor
  · intro h
    unfold guardedLiteral? at h
    split at h
    · rename_i operator name literal
      by_cases hop : operator ∈ equalityOperators
      · rw [if_pos hop] at h
        obtain rfl := Option.some.inj h
        exact ⟨operator, hop, name, .inl rfl⟩
      · rw [if_neg hop] at h
        cases h
    · rename_i operator literal name
      by_cases hop : operator ∈ equalityOperators
      · rw [if_pos hop] at h
        obtain rfl := Option.some.inj h
        exact ⟨operator, hop, name, .inr rfl⟩
      · rw [if_neg hop] at h
        cases h
    · cases h
  · rintro ⟨operator, hop, name, rfl | rfl⟩
    · exact if_pos hop
    · exact if_pos hop

namespace Node.Alike

variable {n m : Node}

theorem kindName (h : n.Alike m) : m.kindName = n.kindName := by
  cases h <;> rfl

theorem eq_var_iff (h : n.Alike m) {name : Option String} : m = .var name ↔ n = .var name := by
  cases h <;> simp

theorem eq_string_iff (h : n.Alike m) {value : String} : m = .string value ↔ n = .string value := by
  cases h <;> simp

theorem guardOf (h : n.Alike m) (o : Options) : o.guardOf m = o.guardOf n := by
  have hliteral : guardedLiteral? m = guardedLiteral? n := by
    refine Option.ext fun value => ?_
    -- by what the test looks like, since comparing all pairs of operands would be a case for each pair of kinds
    rw [guardedLiteral?_eq_some_iff, guardedLiteral?_eq_some_iff]
    refine exists_congr fun operator => and_congr_right fun _ => exists_congr fun name => ?_
    cases h with
    | bin operator hleft hright =>
      simp [hleft.eq_var_iff, hleft.eq_string_iff, hright.eq_var_iff, hright.eq_string_iff]
    | _ => simp
  unfold Options.guardOf
  rw [hliteral]

theorem assign_target (h : n.Alike m) (s : Run) (taint : Taint) : s.assign m taint = s.assign n taint := by
  by_cases hn : ∃ x, n = .var (some x)
  · obtain ⟨x, rfl⟩ := hn
    rw [h.eq_var_iff.2 rfl]
  · rw [Run.assign, Run.assign, h.kindName]
    · exact fun x hx => hn ⟨x, hx⟩
    · exact fun x hx => hn ⟨x, h.eq_var_iff.1 hx⟩

end Node.Alike

/-! ## §2. Arguments and parts. -/

section Lists

variable {ns ms : List Node} (h : List.Forall₂ Node.Alike ns ms)
include h

theorem interpolate_alike (taint : Taint) (s : Run) : Run.interpolate taint ms s = Run.interpolate taint ns s := by
  induction h generalizing taint s with
  | nil => rfl
  | @cons n m ns ms hn _ ih =>
    by_cases hvar : ∃ x, n = .var (some x)
    · obtain ⟨x, rfl⟩ := hvar
      obtain rfl := hn.eq_var_iff.2 rfl
      exact ih _ _
    · rw [interpolate_cons_of_ne fun x hx => hvar ⟨x, hx⟩,
        interpolate_cons_of_ne fun x hx => hvar ⟨x, hn.eq_var_iff.1 hx⟩]
      exact ih taint s

theorem namedArguments_alike (s : Run) : Run.namedArguments ms s = Run.namedArguments ns s := by
  induction h generalizing s with
  | nil => rfl
  | cons hn _ ih =>
    cases hn with
    | var name =>
      cases name with
      | none => exact ih _
      | some x => simp only [Run.namedArguments, ih]
    | _ => exact ih s

theorem echo_alike (o : Options) (s : Run) : Run.echo o ms s = Run.echo o ns s := by
  induction h generalizing s with
  | nil => rfl
  | cons hn _ ih =>
    cases hn with
    | offsetLookup name => exact ih (s.echoLookup o name)
    | _ => exact ih s

end Lists

/-! ## §3. Expressions and simple statements. -/

/-- **Evaluation cannot tell the trees apart.** -/
theorem Node.Alike.evaluate {n : Node} (o : Options) : ∀ {m : Node}, n.Alike m → evaluate o m = evaluate o n := by
  induction n using Node.induction with
  | step n ih =>
    intro m h
    funext s
    cases h with
    | bin operator hleft hright =>
      have hleft' := ih _ (by simp [Node.children]) hleft
      have hright' := ih _ (by simp [Node.children]) hright
      simp only [TaintFlow.evaluate, hleft', hright']
    | encapsed hparts => exact interpolate_alike hparts ∅ s
    | call name harguments =>
      cases name with
      | none => rfl
      | some function =>
        have hcall : ∀ {ns ms : List Node}, List.Forall₂ Node.Alike ns ms → s.call function ms = s.call function ns := by
          intro ns ms hns
          simp only [Run.call, namedArguments_alike hns]
        have hafter := hcall harguments
        cases harguments with
        | nil => rfl
        | cons hfirst hrest =>
          have hfirst' := ih _ (by simp [Node.children]) hfirst
          simp only [TaintFlow.evaluate, evaluateFirst, hfirst', hafter]
    | var name => cases name <;> rfl
    | unknown | string | offsetLookup | assign | echo | cond | loop | block => rfl

theorem execute_assign_alike {left right left' right' : Node} (hleft : left.Alike left') (hright : right.Alike right')
    (o : Options) : execute o (.assign left' right') = execute o (.assign left right) := by
  funext s
  rw [execute_assign, execute_assign, hright.evaluate]
  exact hleft.assign_target _ _

theorem execute_echo_alike {ns ms : List Node} (h : List.Forall₂ Node.Alike ns ms) (o : Options) :
    execute o (.echo ms) = execute o (.echo ns) :=
  funext (echo_alike h o)

end TaintFlow
