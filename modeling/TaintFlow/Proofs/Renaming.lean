/-
  TaintFlow.Proofs.Renaming
  ─────────────────────────
  **The names of variables and the wording of literals do not matter.**

  A renaming gives every variable another name, never the same one to two variables, and every
  literal another wording.  Executing the renamed program from the renamed state is executing
  the program and renaming the state afterwards,

      execute (n.rename ρ) (s.rename ρ)  =  (execute n s).rename ρ,

  and a renamed state has the same verdict and the same counts.  Two literals may be given
  one wording only if the analysis does not compare literals with their guards.

    • `Env.rename`, `Run.rename` — the same states with other names: variables keep their order
      and their marks,
    • `Renaming.Carries` — one effect does to renamed runs what another does to the runs,
    • `evaluate_rename`, `execute_rename` — expressions and statements, by induction,
    • `loopLimit_rename`, `carries_repeatBody` — loops, which see only sizes and weights,
    • `run_rename` — so a whole run is renamed as it is.
-/
import TaintFlow.Proofs.Environment
import TaintFlow.Proofs.Statement

namespace TaintFlow

/-! ## §1. Renamings. -/

/-- Other names for variables, different ones for different variables, and other wordings for literals. -/
structure Renaming where
  name : String → String
  literal : String → String
  injective : Function.Injective name

/-- Where literals are compared with their guards, different literals are kept apart. -/
def Renaming.KeepsGuards (ρ : Renaming) (o : Options) : Prop :=
  Function.Injective ρ.literal ∨ o.guardedLiterals = false

mutual

/-- The tree with other names of variables and other literals.  The names of calls and reads stay. -/
def Node.rename (ρ : Renaming) : Node → Node
  | .unknown rawKind reason => .unknown rawKind reason
  | .var name => .var (name.map ρ.name)
  | .string value => .string (ρ.literal value)
  | .offsetLookup name offset => .offsetLookup name (Node.renameOffset ρ offset)
  | .bin operator left right => .bin operator (left.rename ρ) (right.rename ρ)
  | .call name arguments => .call name (Node.renameAll ρ arguments)
  | .encapsed parts => .encapsed (Node.renameAll ρ parts)
  | .assign left right => .assign (left.rename ρ) (right.rename ρ)
  | .echo arguments => .echo (Node.renameAll ρ arguments)
  | .cond test body alternate =>
    .cond (test.rename ρ) (Node.renameAll ρ body) (Node.renameAlternate ρ alternate)
  | .loop test body => .loop (test.rename ρ) (Node.renameAll ρ body)
  | .block children => .block (Node.renameAll ρ children)

/-- The offset of a read, renamed. -/
def Node.renameOffset (ρ : Renaming) : Option Node → Option Node
  | none => none
  | some offset => some (offset.rename ρ)

/-- The second branch of a conditional, renamed. -/
def Node.renameAlternate (ρ : Renaming) : Option (List Node) → Option (List Node)
  | none => none
  | some body => some (Node.renameAll ρ body)

/-- Nodes in a row, renamed. -/
def Node.renameAll (ρ : Renaming) : List Node → List Node
  | [] => []
  | n :: rest => n.rename ρ :: Node.renameAll ρ rest

end

/-- The program with other names of variables and other literals. -/
def Program.rename (ρ : Renaming) (p : Program) : Program := ⟨Node.renameAll ρ p.children⟩

section

variable (ρ : Renaming)

theorem Node.sameKind_rename (n : Node) : n.SameKind (n.rename ρ) := by
  cases n <;> exact ⟨rfl, rfl⟩

/-- What holds of each node and its renamed form holds of the nodes in a row one by one. -/
theorem Node.forall₂_renameAll {R : Node → Node → Prop} {ns : List Node} (h : ∀ n ∈ ns, R n (n.rename ρ)) :
    List.Forall₂ R ns (Node.renameAll ρ ns) := by
  induction ns with
  | nil => exact .nil
  | cons n rest ih => exact .cons (h n List.mem_cons_self) (ih fun m hm => h m (List.mem_cons_of_mem n hm))

theorem guardOf_rename (o : Options) (test : Node) :
    o.guardOf (test.rename ρ) = (o.guardOf test).map ρ.literal := by
  -- only a comparison of a variable with a literal guards, on either side of the operator
  have hliteral : guardedLiteral? (test.rename ρ) = (guardedLiteral? test).map ρ.literal := by
    cases test with
    | bin operator left right =>
      cases left with
      | var name =>
        cases right with
        | string value =>
          show (if operator ∈ equalityOperators then some (ρ.literal value) else none)
            = (if operator ∈ equalityOperators then some value else none).map ρ.literal
          split <;> rfl
        | unknown | var | offsetLookup | bin | call | encapsed | assign | echo | cond | loop | block => rfl
      | string value =>
        cases right with
        | var name =>
          show (if operator ∈ equalityOperators then some (ρ.literal value) else none)
            = (if operator ∈ equalityOperators then some value else none).map ρ.literal
          split <;> rfl
        | unknown | string | offsetLookup | bin | call | encapsed | assign | echo | cond | loop | block => rfl
      | unknown | offsetLookup | bin | call | encapsed | assign | echo | cond | loop | block => rfl
    | unknown | var | string | offsetLookup | call | encapsed | assign | echo | cond | loop | block => rfl
  unfold Options.guardOf
  rw [hliteral]
  split <;> rfl

/-- The listed variables are renamed one by one. -/
theorem Node.variableNamesOf_rename {ns : List Node}
    (h : ∀ n ∈ ns, (n.rename ρ).variableNames = n.variableNames.map ρ.name) :
    Node.variableNamesOf (Node.renameAll ρ ns) = (Node.variableNamesOf ns).map ρ.name := by
  induction ns with
  | nil => rfl
  | cons n rest ih =>
    rw [Node.renameAll, Node.variableNamesOf, Node.variableNamesOf, List.map_append, h n List.mem_cons_self,
      ih fun m hm => h m (List.mem_cons_of_mem n hm)]

theorem Node.variableNames_rename (n : Node) : (n.rename ρ).variableNames = n.variableNames.map ρ.name := by
  induction n using Node.induction with
  | step n ih =>
    cases n with
    | unknown | string => rfl
    | var name => cases name <;> rfl
    | offsetLookup name offset =>
      cases offset with
      | none => rfl
      | some offset => exact ih offset (by simp [Node.children])
    | bin operator left right | assign left right =>
      rw [Node.rename, Node.variableNames, Node.variableNames, List.map_append,
        ih left (by simp [Node.children]), ih right (by simp [Node.children])]
    | call name ns | encapsed ns | echo ns | block ns =>
      rw [Node.rename, Node.variableNames, Node.variableNames]
      exact Node.variableNamesOf_rename ρ fun n hn => ih n hn
    | loop test body =>
      rw [Node.rename, Node.variableNames, Node.variableNames, List.map_append,
        ih test (by simp [Node.children]),
        Node.variableNamesOf_rename ρ fun n hn => ih n (by simp [Node.children, hn])]
    | cond test body alternate =>
      have htest := ih test (by simp [Node.children])
      have hbody := Node.variableNamesOf_rename ρ fun n (hn : n ∈ body) => ih n (by simp [Node.children, hn])
      cases alternate with
      | none =>
        rw [Node.rename, Node.renameAlternate, Node.variableNames, Node.variableNames, List.map_append, htest, hbody]
      | some other =>
        have hother := Node.variableNamesOf_rename ρ fun n (hn : n ∈ other) => ih n (by simp [Node.children, hn])
        rw [Node.rename, Node.renameAlternate, Node.variableNames, Node.variableNames, List.map_append,
          List.map_append, htest, hbody, hother]

end

/-! ## §2. Environments. -/

namespace Assoc

variable {κ ν : Type} [DecidableEq κ] {f : κ → κ} (hf : Function.Injective f)
include hf

theorem get?_map_key (key : κ) (l : List (κ × ν)) : get? (f key) (l.map fun e => (f e.1, e.2)) = get? key l := by
  induction l with
  | nil => rfl
  | cons e rest ih =>
    by_cases h : e.1 = key
    · simp [get?, h]
    · have hne : f e.1 ≠ f key := fun heq => h (hf heq)
      simp [get?, h, hne, ih]

theorem put_map_key (key : κ) (value : ν) (l : List (κ × ν)) :
    put (f key) value (l.map fun e => (f e.1, e.2)) = (put key value l).map fun e => (f e.1, e.2) := by
  induction l with
  | nil => rfl
  | cons e rest ih =>
    by_cases h : e.1 = key
    · simp [put, h]
    · have hne : f e.1 ≠ f key := fun heq => h (hf heq)
      simp [put, h, hne, ih]

end Assoc

namespace Env

/-- The same marks on the renamed variables, in the same order. -/
def rename (ρ : Renaming) (e : Env String) : Env String :=
  ⟨⟨e.bindings.entries.map fun b => (ρ.name b.1, b.2), by
    have hkeys : Assoc.keys (e.bindings.entries.map fun b => (ρ.name b.1, b.2))
        = (Assoc.keys e.bindings.entries).map ρ.name := by
      simp [Assoc.keys]
    rw [hkeys]
    exact e.bindings.nodup.map ρ.injective⟩⟩

variable (ρ : Renaming)

theorem ext_of_entries {a b : Env String} (h : a.bindings.entries = b.bindings.entries) : a = b := by
  obtain ⟨⟨la, ha⟩⟩ := a
  obtain ⟨⟨lb, hb⟩⟩ := b
  obtain rfl : la = lb := h
  rfl

theorem get?_rename (e : Env String) (x : String) : (e.rename ρ).bindings.get? (ρ.name x) = e.bindings.get? x :=
  Assoc.get?_map_key ρ.injective x e.bindings.entries

theorem taintOf_rename (e : Env String) (x : String) : (e.rename ρ).taintOf (ρ.name x) = e.taintOf x := by
  unfold taintOf
  rw [get?_rename]

theorem assign_rename (e : Env String) (x : String) (t : Taint) :
    (e.rename ρ).assign (ρ.name x) t = (e.assign x t).rename ρ :=
  ext_of_entries (Assoc.put_map_key ρ.injective x t e.bindings.entries)

theorem sanitize_rename (e : Env String) (x : String) : (e.rename ρ).sanitize (ρ.name x) = (e.sanitize x).rename ρ :=
  assign_rename ρ e x ∅

theorem declare_rename (e : Env String) (x : String) : (e.rename ρ).declare (ρ.name x) = (e.declare x).rename ρ := by
  have hcontains : (e.rename ρ).contains (ρ.name x) = e.contains x := congrArg Option.isSome (get?_rename ρ e x)
  unfold declare
  rw [hcontains, sanitize_rename]
  split <;> rfl

theorem foldl_sanitize_rename (xs : List String) (e : Env String) :
    (xs.map ρ.name).foldl sanitize (e.rename ρ) = (xs.foldl sanitize e).rename ρ := by
  induction xs generalizing e with
  | nil => rfl
  | cons x xs ih => rw [List.map_cons, List.foldl_cons, List.foldl_cons, sanitize_rename, ih]

/-- **Joins do not look at names** but to tell them apart. -/
theorem join_rename (a b : Env String) : (a.rename ρ).join (b.rename ρ) = (a.join b).rename ρ := by
  have hfold : ∀ (l : List (String × Taint)) (e : Env String),
      (l.map fun entry => (ρ.name entry.1, entry.2)).foldl
          (fun e entry => e.assign entry.1 (entry.2 ∪ (b.rename ρ).taintOf entry.1)) (e.rename ρ)
        = (l.foldl (fun e entry => e.assign entry.1 (entry.2 ∪ b.taintOf entry.1)) e).rename ρ := by
    intro l
    induction l with
    | nil => exact fun _ => rfl
    | cons entry rest ih =>
      intro e
      rw [List.map_cons, List.foldl_cons, List.foldl_cons, taintOf_rename, assign_rename, ih]
  exact hfold a.bindings.entries b

theorem size_rename (e : Env String) : (e.rename ρ).size = e.size := List.length_map _

theorem weight_rename (e : Env String) : (e.rename ρ).weight = e.weight := by
  show (e.bindings.entries.map fun b => (ρ.name b.1, b.2)).foldr (fun b n => b.2.size + n) 0 = _
  rw [List.foldr_map]
  rfl

end Env

/-! ## §3. Runs. -/

/-- The occasion with other names of variables and other literals. -/
def Event.rename (ρ : Renaming) : Event → Event
  | .guardedLiteral value => .guardedLiteral (ρ.literal value)
  | .taintedCall name call pattern => .taintedCall (ρ.name name) call pattern
  | e => e

namespace Run

/-- The same run with other names of variables and other literals.  The verdict and the counts know neither. -/
def rename (ρ : Renaming) (s : Run) : Run :=
  { s with
    env := s.env.rename ρ,
    guards := s.guards.map ρ.literal,
    events := s.events.map (Event.rename ρ) }

variable (ρ : Renaming) (s : Run)

theorem fallback_rename (reason detail : String) :
    (s.rename ρ).fallback reason detail = (s.fallback reason detail).rename ρ := rfl

theorem report_rename (pattern : String) (e : Event) :
    { s.rename ρ with verdict := (s.rename ρ).verdict.markVulnerable pattern }.log (e.rename ρ)
      = ({ s with verdict := s.verdict.markVulnerable pattern }.log e).rename ρ := rfl

theorem read_rename (x : String) : (s.rename ρ).read (ρ.name x) = ((s.read x).1, (s.read x).2.rename ρ) := by
  show ((s.env.rename ρ).taintOf (ρ.name x), { s.rename ρ with env := (s.env.rename ρ).declare (ρ.name x) }) = _
  rw [Env.taintOf_rename, Env.declare_rename]
  rfl

theorem enter_rename (guard : Option String) :
    (s.rename ρ).enter (guard.map ρ.literal) = (s.enter guard).rename ρ := by
  cases guard <;> rfl

theorem leave_rename (guard : Option String) :
    (s.rename ρ).leave (guard.map ρ.literal) = (s.leave guard).rename ρ := by
  cases guard with
  | none => rfl
  | some literal =>
    show { s.rename ρ with guards := (s.guards.map ρ.literal).tail } = _
    rw [← List.map_tail]
    rfl

theorem withEnv_rename (e : Env String) : (s.rename ρ).withEnv (e.rename ρ) = (s.withEnv e).rename ρ := rfl

/-- Entry points are not renamed. -/
theorem lookupPatterns_rename (o : Options) (name : Option String) :
    (s.rename ρ).lookupPatterns o name = ((s.lookupPatterns o name).1, (s.lookupPatterns o name).2.rename ρ) := by
  cases name with
  | none => rfl
  | some name =>
    unfold lookupPatterns queryEntryPoint
    cases o.narrowing <;> rfl

/-- A literal equals its guard before and after renaming, or it is never compared. -/
theorem literalTaint_rename {o : Options} (hρ : ρ.KeepsGuards o) (value : String) :
    (s.rename ρ).literalTaint o (ρ.literal value)
      = ((s.literalTaint o value).1, (s.literalTaint o value).2.rename ρ) := by
  have hguard : (s.rename ρ).guard? = s.guard?.map ρ.literal := List.head?_map
  have hsame : (o.guardedLiterals = true ∧ (s.rename ρ).guard? = some (ρ.literal value)) ↔
      (o.guardedLiterals = true ∧ s.guard? = some value) := by
    refine and_congr_right fun hon => ?_
    rw [hguard]
    -- different literals stay different, or the comparison is off
    obtain hinjective | hoff := hρ
    · exact (Option.map_injective hinjective).eq_iff (b := some value)
    · rw [hoff] at hon
      cases hon
  unfold literalTaint
  by_cases h : o.guardedLiterals = true ∧ s.guard? = some value
  · rw [if_pos h, if_pos (hsame.2 h)]
    rfl
  · rw [if_neg h, if_neg fun h' => h (hsame.1 h')]

end Run

/-- The second effect does to renamed runs what the first does to the runs. -/
def Renaming.Carries (ρ : Renaming) (f g : Run → Run) : Prop := ∀ s : Run, g (s.rename ρ) = (f s).rename ρ

namespace Renaming.Carries

variable {ρ : Renaming}

theorem andThen {f g f' g' : Run → Run} (h : ρ.Carries f g) (h' : ρ.Carries f' g') :
    ρ.Carries (f' ∘ f) (g' ∘ g) := by
  intro s
  rw [Function.comp_apply, Function.comp_apply, h, h']

theorem sequentialPair (ρ : Renaming) : SequentialPair ρ.Carries where
  idle _ := rfl
  andThen := andThen
  fallback reason detail s := Run.fallback_rename ρ s reason detail

theorem foldl {α : Type} {f g : Run → α → Run} (h : ∀ a : α, ρ.Carries (f · a) (g · a)) (l : List α) :
    ρ.Carries (fun s => l.foldl f s) fun s => l.foldl g s := by
  induction l with
  | nil => exact fun _ => rfl
  | cons a l ih => exact andThen (h a) ih

end Renaming.Carries

/-! ## §4. Expressions. -/

section Evaluation

variable (ρ : Renaming)

theorem interpolate_rename (parts : List Node) : ∀ (taint : Taint) (s : Run),
    Run.interpolate taint (Node.renameAll ρ parts) (s.rename ρ)
      = ((Run.interpolate taint parts s).1, (Run.interpolate taint parts s).2.rename ρ) := by
  induction parts with
  | nil => exact fun _ _ => rfl
  | cons n rest ih =>
    intro taint s
    match n with
    | .var (some x) =>
      show Run.interpolate (taint ∪ ((s.rename ρ).read (ρ.name x)).1) (Node.renameAll ρ rest)
        ((s.rename ρ).read (ρ.name x)).2 = _
      rw [Run.read_rename]
      exact ih (taint ∪ (s.read x).1) (s.read x).2
    | .var none | .unknown .. | .string _ | .offsetLookup .. | .bin .. | .call .. | .encapsed _ | .assign ..
    | .echo _ | .cond .. | .loop .. | .block _ => exact ih taint s

theorem namedArguments_rename (arguments : List Node) : ∀ s : Run,
    Run.namedArguments (Node.renameAll ρ arguments) (s.rename ρ)
      = ((Run.namedArguments arguments s).1.map ρ.name, (Run.namedArguments arguments s).2.rename ρ) := by
  induction arguments with
  | nil => exact fun _ => rfl
  | cons n rest ih =>
    intro s
    match n with
    | .var (some x) =>
      show (ρ.name x :: (Run.namedArguments (Node.renameAll ρ rest) (s.rename ρ)).1,
        (Run.namedArguments (Node.renameAll ρ rest) (s.rename ρ)).2) = _
      rw [ih]
      rfl
    | .var none => exact ih (s.fallback "variable_without_name" "")
    | .unknown .. | .string _ | .offsetLookup .. | .bin .. | .call .. | .encapsed _ | .assign .. | .echo _
    | .cond .. | .loop .. | .block _ => exact ih s

theorem checkArgument_rename (function : String) (p : Pattern) (s : Run) (x : String) :
    Run.checkArgument function p (s.rename ρ) (ρ.name x) = (Run.checkArgument function p s x).rename ρ := by
  unfold Run.checkArgument
  rw [Run.read_rename]
  simp only
  split
  · exact Run.report_rename ρ (s.read x).2 p.name (.taintedCall x function p.name)
  · rfl

theorem checkSink_rename (function : String) (names : List String) (p : Pattern) (s : Run) :
    Run.checkSink function (names.map ρ.name) (s.rename ρ) p = (Run.checkSink function names s p).rename ρ := by
  unfold Run.checkSink
  rw [List.foldl_map]
  exact Renaming.Carries.foldl (fun x s => checkArgument_rename ρ function p s x) names s

theorem applySanitizer_rename (s : Run) (function : String) (names : List String) :
    (s.rename ρ).applySanitizer function (names.map ρ.name) = (s.applySanitizer function names).rename ρ := by
  unfold Run.applySanitizer
  show { s.rename ρ with
    env := (names.map ρ.name).foldl Env.sanitize (s.env.rename ρ),
    verdict := s.verdict.recordSanitizer function } = _
  rw [Env.foldl_sanitize_rename]
  rfl

theorem call_rename (s : Run) (function : String) (arguments : List Node) :
    (s.rename ρ).call function (Node.renameAll ρ arguments) = (s.call function arguments).rename ρ := by
  -- patterns are not renamed, so both runs agree on what is a sink and what is a sanitizer
  by_cases hnone : Catalog.withSink function s.active = [] ∧ Catalog.withSanitizer function s.active = []
  · rw [call_of_none hnone, call_of_none (s := s.rename ρ) hnone]
  · have hsinks (names : List String) := Renaming.Carries.foldl (ρ := ρ)
      (fun p t => checkSink_rename ρ function names p t) (Catalog.withSink function s.active)
    rw [call_of_some hnone, call_of_some (s := s.rename ρ) hnone, namedArguments_rename]
    have hactive : (s.rename ρ).active = s.active := rfl
    simp only [hactive, hsinks _ _, applySanitizer_rename, List.map_eq_nil_iff]
    split <;> rfl

variable {ρ} {o : Options} (hρ : ρ.KeepsGuards o)
include hρ

/-- **Expressions** have the same taint. -/
theorem evaluate_rename (n : Node) : ∀ s : Run,
    evaluate o (n.rename ρ) (s.rename ρ) = ((evaluate o n s).1, (evaluate o n s).2.rename ρ) := by
  induction n using Node.induction with
  | step n ih =>
    intro s
    cases n with
    | offsetLookup name offset =>
      rw [Node.rename, evaluate_lookup, evaluate_lookup]
      simp only [Run.lookupPatterns_rename]
    | bin operator left right =>
      have hleft := ih left (by simp [Node.children])
      have hright := ih right (by simp [Node.children])
      simp only [Node.rename, evaluate, hleft, hright]
      split <;> rfl
    | string value => exact Run.literalTaint_rename ρ s hρ value
    | encapsed parts => exact interpolate_rename ρ parts ∅ s
    | var name =>
      cases name with
      | none => rfl
      | some x => exact Run.read_rename ρ s x
    | call name arguments =>
      cases name with
      | none => rfl
      | some function =>
        cases hpass : o.passesThrough function with
        | false =>
          rw [Node.rename, evaluate_call hpass, evaluate_call hpass]
          simp only [call_rename]
        | true =>
          cases arguments with
          | nil =>
            simp only [Node.rename, Node.renameAll, evaluate, evaluateFirst, hpass, if_true]
          | cons argument rest =>
            rw [Node.rename, Node.renameAll, evaluate_pass hpass, evaluate_pass hpass]
            exact ih argument (by simp [Node.children]) s
    | unknown | assign | echo | cond | loop | block => rfl

end Evaluation

/-! ## §5. Statements. -/

section Execution

variable (ρ : Renaming) (o : Options)

theorem assign_rename (s : Run) (target : Node) (taint : Taint) :
    (s.rename ρ).assign (target.rename ρ) taint = (s.assign target taint).rename ρ := by
  cases target with
  | var name =>
    cases name with
    | none => rfl
    | some x =>
      show { s.rename ρ with env := ((s.env.rename ρ).declare (ρ.name x)).assign (ρ.name x) taint } = _
      rw [Env.declare_rename, Env.assign_rename]
      rfl
  | unknown | string | offsetLookup | bin | call | encapsed | assign | echo | cond | loop | block => rfl

theorem echoLookup_rename (s : Run) (name : Option String) :
    (s.rename ρ).echoLookup o name = (s.echoLookup o name).rename ρ := by
  unfold Run.echoLookup
  rw [Run.lookupPatterns_rename]
  refine Renaming.Carries.foldl (fun p t => ?_) _ _
  show (if o.echoSink ∈ p.sinks then _ else t.rename ρ) = _
  split
  · exact Run.report_rename ρ t p.name (.taintedOutput (name.getD "") p.name)
  · rfl

theorem echo_rename (arguments : List Node) : ∀ s : Run,
    Run.echo o (Node.renameAll ρ arguments) (s.rename ρ) = (Run.echo o arguments s).rename ρ := by
  induction arguments with
  | nil => exact fun _ => rfl
  | cons n rest ih =>
    intro s
    match n with
    | .offsetLookup name offset =>
      show Run.echo o (Node.renameAll ρ rest) ((s.rename ρ).echoLookup o name) = _
      rw [echoLookup_rename]
      exact ih (s.echoLookup o name)
    | .unknown .. | .var _ | .string _ | .bin .. | .call .. | .encapsed _ | .assign .. | .echo _
    | .cond .. | .loop .. | .block _ => exact ih s

/-- A loop can go on as long as before. -/
theorem loopLimit_rename (body : List Node) (s : Run) :
    loopLimit (Node.renameAll ρ body) (s.rename ρ) = loopLimit body s := by
  unfold loopLimit
  show ((s.env.rename ρ).size + _) * (s.active.length + (s.env.rename ρ).weight) + 1 = _
  rw [Env.size_rename, Env.weight_rename, Node.variableNamesOf_rename ρ fun n _ => n.variableNames_rename ρ,
    List.length_map]

variable {ρ o}

theorem settle_rename {f g : Run → Run} (h : ρ.Carries f g) (limit : Nat) :
    ∀ s : Run, settle g limit (s.rename ρ) = ((settle f limit s).1.rename ρ, (settle f limit s).2) := by
  induction limit with
  | zero => exact fun _ => rfl
  | succ limit ih =>
    intro s
    have hweight : ∀ t : Run, (t.rename ρ).env.weight = t.env.weight := fun t => Env.weight_rename ρ t.env
    -- both sides compare the same weights, so they stop in the same round
    rw [settle, settle, h, hweight, hweight]
    split
    · rw [ih]
    · rfl

/-- **Loops**: both take the same number of iterations, since weights do not change. -/
theorem carries_repeatBody {f g : Run → Run} (h : ρ.Carries f g) (body : List Node) :
    ρ.Carries (repeatBody f (loopLimit body)) (repeatBody g (loopLimit (Node.renameAll ρ body))) := by
  intro s
  unfold repeatBody
  rw [loopLimit_rename, settle_rename h]
  rfl

/-- **Conditionals** under the renamed guard. -/
theorem carries_branch (guard : Option String) {f g f' g' : Run → Run} (hfirst : ρ.Carries f g)
    (hsecond : ρ.Carries f' g') : ρ.Carries (branch guard f f') (branch (guard.map ρ.literal) g g') := by
  intro s
  unfold branch
  have henv : ∀ t : Run, (t.rename ρ).env = t.env.rename ρ := fun _ => rfl
  simp only [Run.enter_rename, hfirst _, henv, Run.withEnv_rename, hsecond _, Run.leave_rename, Env.join_rename]

/-- A body, if each of its statements is carried over. -/
theorem carries_body {ns : List Node} (h : ∀ n ∈ ns, ρ.Carries (execute o n) (execute o (n.rename ρ))) (c : Context) :
    ρ.Carries (executeBody o c false ns) (executeBody o c false (Node.renameAll ρ ns)) :=
  (Renaming.Carries.sequentialPair ρ).body
    (Node.forall₂_renameAll ρ fun n hn => ⟨Node.sameKind_rename ρ n, h n hn⟩) false

variable (hρ : ρ.KeepsGuards o)
include hρ

/-- **Executing what is renamed is renaming what is executed.** -/
theorem execute_rename (n : Node) : ρ.Carries (execute o n) (execute o (n.rename ρ)) := by
  induction n using Node.induction with
  | step n ih =>
    cases n with
    | assign left right =>
      intro s
      rw [Node.rename, execute_assign, execute_assign]
      simp only [evaluate_rename hρ, assign_rename]
    | echo arguments => exact echo_rename ρ o arguments
    | cond test body alternate =>
      rw [Node.rename, execute_cond, execute_cond, guardOf_rename]
      refine carries_branch _ (carries_body (fun n hn => ih n (by simp [Node.children, hn])) .branch) ?_
      cases alternate with
      | none => exact fun _ => rfl
      | some other => exact carries_body (fun n hn => ih n (by simp [Node.children, hn])) .branch
    | loop test body =>
      rw [Node.rename, execute_loop, execute_loop]
      exact carries_repeatBody (carries_body (fun n hn => ih n (by simp [Node.children, hn])) .loop) body
    | block children =>
      rw [Node.rename, execute_block, execute_block]
      exact (Renaming.Carries.sequentialPair ρ).all (Node.forall₂_renameAll ρ fun n hn => ih n hn)
    | unknown | var | string | offsetLookup | bin | call | encapsed => exact fun _ => rfl

end Execution

/-! ## §6. Programs. -/

section Depth

variable (ρ : Renaming) (o : Options)

theorem condDepthOf_rename {ns : List Node} (h : ∀ n ∈ ns, condDepth o (n.rename ρ) = condDepth o n) (c : Context) :
    condDepthOf o c false (Node.renameAll ρ ns) = condDepthOf o c false ns :=
  condDepthOf_congr (Node.forall₂_renameAll ρ fun n hn => ⟨Node.sameKind_rename ρ n, h n hn⟩) false

theorem condDepth_rename (n : Node) : condDepth o (n.rename ρ) = condDepth o n := by
  induction n using Node.induction with
  | step n ih =>
    cases n with
    | cond test body alternate =>
      have hbody := condDepthOf_rename ρ o (fun n (hn : n ∈ body) => ih n (by simp [Node.children, hn])) .branch
      rw [Node.rename, condDepth, condDepth, hbody]
      cases alternate with
      | none => rfl
      | some other =>
        rw [Node.renameAlternate, condDepthAlternate, condDepthAlternate,
          condDepthOf_rename ρ o (fun n (hn : n ∈ other) => ih n (by simp [Node.children, hn])) .branch]
    | loop test body =>
      rw [Node.rename, condDepth, condDepth]
      exact condDepthOf_rename ρ o (fun n (hn : n ∈ body) => ih n (by simp [Node.children, hn])) .loop
    | block children =>
      rw [Node.rename, condDepth, condDepth]
      exact condDepthAll_congr (Node.forall₂_renameAll ρ fun n hn => ih n hn)
    | unknown | var | string | offsetLookup | bin | call | encapsed | assign | echo => rfl

end Depth

/-- **A whole run is renamed as it is**, since nothing has a name at its start. -/
theorem run_rename {o : Options} {ρ : Renaming} (hρ : ρ.KeepsGuards o) (c : Catalog) (loading : Tally) (p : Program) :
    (p.rename ρ).run o c loading = (p.run o c loading).rename ρ := by
  let start : Run := { Run.start c with diagnostics := Tally.empty.merge "ast_" loading.toList }
  have hstart : start.rename ρ = start := rfl
  have hall : ρ.Carries (executeAll o p.children) (executeAll o (p.rename ρ).children) :=
    (Renaming.Carries.sequentialPair ρ).all (Node.forall₂_renameAll ρ fun n _ => execute_rename hρ n)
  show executeAll o (p.rename ρ).children start = (executeAll o p.children start).rename ρ
  rw [← hall start, hstart]

/-- **The conclusion of an analysis does not depend on the names of variables or the wording of literals**: it is the
same in all of its parts, the order of violations, sanitizers and counts included.  If literals are not compared with
their guards, then different literals may even be given the same wording. -/
theorem conclusion_invariant_under_renaming (limits : Limits) (o : Options) (c : Catalog) (loading : Tally) (p : Program)
    (ρ : Renaming) (hρ : Function.Injective ρ.literal ∨ o.guardedLiterals = false) :
    ((p.rename ρ).analyze limits o c loading).1 = (p.analyze limits o c loading).1 := by
  have hdepth : condDepthAll o (p.rename ρ).children = condDepthAll o p.children :=
    condDepthAll_congr (Node.forall₂_renameAll ρ fun n _ => condDepth_rename ρ o n)
  unfold Program.analyze
  rw [hdepth, run_rename hρ]
  split <;> rfl

/-- Input that one round of a loop reads and the next one hands to a sink, with a literal that equals its guard and
one that does not. -/
def delayedQuery : Program where
  children :=
    [.loop (.var (some "more"))
      [.assign (.var (some "r")) (.call (some "query") [.var (some "q"), .var (some "order")]),
       .cond (.bin "==" (.string "all") (.var (some "mode")))
        [.assign (.var (some "q")) (.string "all"), .assign (.var (some "order")) (.string "asc")]
        (some [.assign (.var (some "q")) (.bin "." (.var (some "q")) (.offsetLookup (some "_GET") none))])]]

/-- A sign in front of the name of every variable, and the given wording of literals. -/
def marking (literal : String → String) : Renaming where
  name x := "v_" ++ x
  literal := literal
  injective _ _ h := (String.append_right_inj _).mp h

theorem delayedQuery_same_conclusion :
    let o : Options := { blockStrategy := .all }
    let unguarded : Options := { blockStrategy := .all, guardedLiterals := false }
    let c : Catalog := ⟨[.build "SQL" ["$_GET"] ["escape"] ["query"], .build "XSS" ["$_POST"] [] ["query"]]⟩
    let quoting : Renaming := marking fun value => "l_" ++ value
    let erasing : Renaming := marking fun _ => ""
    (Function.Injective quoting.literal ∧
      ((delayedQuery.rename quoting).analyze .standard o c ∅).1 = (delayedQuery.analyze .standard o c ∅).1 ∧
      (delayedQuery.run o c ∅).verdict.violatedPatterns = ["SQL", "XSS"]) ∧
    (unguarded.guardedLiterals = false ∧
      ((delayedQuery.rename erasing).analyze .standard unguarded c ∅).1
        = (delayedQuery.analyze .standard unguarded c ∅).1 ∧
      (delayedQuery.run unguarded c ∅).verdict.violatedPatterns = ["SQL"]) ∧
    -- where guards are compared, erasing the literals taints one more of them
    ((delayedQuery.rename erasing).run o c ∅).verdict.violatedPatterns = ["SQL", "SQL", "XSS", "XSS"] := by
  intro o unguarded c quoting erasing
  have hquoting : Function.Injective quoting.literal := fun _ _ h => (String.append_right_inj _).mp h
  have hquoted := conclusion_invariant_under_renaming .standard o c ∅ delayedQuery quoting (.inl hquoting)
  have herased := conclusion_invariant_under_renaming .standard unguarded c ∅ delayedQuery erasing (.inr rfl)
  exact ⟨⟨hquoting, hquoted, by decide +kernel⟩, ⟨rfl, herased, by decide +kernel⟩, by decide +kernel⟩

end TaintFlow
