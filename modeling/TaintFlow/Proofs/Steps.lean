/-
  TaintFlow.Proofs.Steps
  ──────────────────────
  **An execution as a row of elementary steps.**

  Evaluating an expression and executing a statement change the run in many small ways.  A step
  is one of them, and the steps of a statement are listed in the order in which they happen,
  through both branches of its conditionals and all rounds of its loops.  The points of an
  execution are the places between its steps.

    • `Step.apply`, `Run.perform` — what one step and a row of steps do to a run,
    • `Step.introduces`, `introduced` — the marks that come into play by them,
    • `evaluationSteps`, `executionSteps`, `Program.steps` — the steps of expressions, statements
      and programs,
    • `Run.Allows` — only patterns under consideration are checked and reported, and only known
      marks are stored,
    • `traces_evaluate`, `performs_execute` — performing the steps is the execution, and each of
      them is allowed where it happens.
-/
import TaintFlow.Proofs.Environment
import TaintFlow.Proofs.Frame

namespace TaintFlow

/-! ## §1. Steps. -/

/-- The variables carry nothing but known marks. -/
def Env.Within (known : String → Prop) (e : Env String) : Prop := ∀ x, ∀ m ∈ e.taintOf x, known m

/-- One elementary change of a run. -/
inductive Step where
  /-- Giving up on a detail. -/
  | fallback (reason detail : String)
  /-- Asking which patterns have an entry point. -/
  | query (entryPoint : String)
  /-- Comparing a literal with its guard. -/
  | literal (value : String)
  /-- Reading a variable. -/
  | read (x : String)
  /-- Reading an argument of a sink of the pattern, and reporting it. -/
  | check (function : String) (p : Pattern) (x : String)
  /-- Reporting a pattern as violated. -/
  | report (p : Pattern) (e : Event)
  /-- Cleaning the arguments of a sanitizer. -/
  | clean (function : String) (names : List String)
  /-- Giving a taint to a variable. -/
  | store (x : String) (taint : Taint)
  /-- Going under a guard. -/
  | enter (guard : Option String)
  /-- Coming from under a guard. -/
  | leave (guard : Option String)
  /-- Going on with another environment, where branches begin and where they meet. -/
  | environment (e : Env String)
  /-- Finishing a loop. -/
  | settled (iterations : Nat)

namespace Step

/-- The run after a step. -/
def apply (o : Options) (s : Run) : Step → Run
  | fallback reason detail => s.fallback reason detail
  | query entryPoint => (s.queryEntryPoint o.narrowing entryPoint).2
  | literal value => (s.literalTaint o value).2
  | read x => (s.read x).2
  | check function p x => Run.checkArgument function p s x
  | report p e => { s with verdict := s.verdict.markVulnerable p.name }.log e
  | clean function names => s.applySanitizer function names
  | store x taint => s.assign (.var (some x)) taint
  | enter guard => s.enter guard
  | leave guard => s.leave guard
  | environment e => s.withEnv e
  | settled iterations => s.finishLoop iterations

/-- The marks that a step brings up: the names of the patterns that were asked for, and those that a guarded literal
carries. -/
def introduces (o : Options) (s : Run) : Step → Taint
  | query entryPoint => .ofList ((s.queryEntryPoint o.narrowing entryPoint).1.map (·.name))
  | literal value => (s.literalTaint o value).1
  | _ => ∅

/-- The entry point that a step asks for. -/
def queried : Step → List String
  | query entryPoint => [entryPoint]
  | _ => []

/-- Only patterns under consideration are checked and reported, and only known marks are stored. -/
def Allowed (known : String → Prop) (active : List Pattern) : Step → Prop
  | check _ p _ | report p _ => p ∈ active
  | store _ taint => ∀ m ∈ taint, known m
  | environment e => e.Within known
  | _ => True

end Step

/-- The run after steps in a row. -/
def Run.perform (o : Options) (s : Run) (l : List Step) : Run := l.foldl (Step.apply o) s

/-- The marks that steps bring up, one after another. -/
def introduced (o : Options) : List Step → Run → Taint
  | [], _ => ∅
  | a :: l, s => a.introduces o s ∪ introduced o l (a.apply o s)

/-- Each step is allowed where it happens. -/
def Run.Allows (o : Options) (known : String → Prop) : List Step → Run → Prop
  | [], _ => True
  | a :: l, s => a.Allowed known s.active ∧ Run.Allows o known l (a.apply o s)

section

variable {o : Options} {known : String → Prop}

@[simp] theorem Run.perform_nil (s : Run) : s.perform o [] = s := rfl

@[simp] theorem Run.perform_cons (s : Run) (a : Step) (l : List Step) :
    s.perform o (a :: l) = (a.apply o s).perform o l := rfl

theorem Run.perform_append (s : Run) (l m : List Step) : s.perform o (l ++ m) = (s.perform o l).perform o m :=
  List.foldl_append

theorem mem_introduced_append {l l' : List Step} {s : Run} {m : String} :
    m ∈ introduced o (l ++ l') s ↔ m ∈ introduced o l s ∨ m ∈ introduced o l' (s.perform o l) := by
  induction l generalizing s with
  | nil => simp [introduced]
  | cons a l ih => simp [introduced, ih, or_assoc]

theorem Run.allows_append {l l' : List Step} {s : Run} :
    Run.Allows o known (l ++ l') s ↔ Run.Allows o known l s ∧ Run.Allows o known l' (s.perform o l) := by
  induction l generalizing s with
  | nil => simp [Run.Allows]
  | cons a l ih => simp [Run.Allows, ih, and_assoc]

/-- Nothing but a query changes the patterns under consideration. -/
theorem Step.active_apply_of_queried {a : Step} (h : a.queried = []) (s : Run) : (a.apply o s).active = s.active := by
  cases a with
  | query entryPoint => cases h
  | literal value =>
    show (s.literalTaint o value).2.active = _
    unfold Run.literalTaint
    split <;> rfl
  | check function p x =>
    show (Run.checkArgument function p s x).active = _
    unfold Run.checkArgument
    simp only
    split <;> rfl
  | enter guard => exact s.active_enter guard
  | leave guard => exact s.active_leave guard
  | fallback | read | report | clean | store | environment | settled => rfl

/-- Without queries it is enough that the steps are allowed at their beginning. -/
theorem Run.allows_of_forall {l : List Step} {s : Run}
    (h : ∀ a ∈ l, a.queried = [] ∧ a.Allowed known s.active) : Run.Allows o known l s := by
  induction l generalizing s with
  | nil => trivial
  | cons a l ih =>
    obtain ⟨hqueried, hallowed⟩ := h a List.mem_cons_self
    refine ⟨hallowed, ih fun b hb => ?_⟩
    rw [Step.active_apply_of_queried hqueried]
    exact h b (List.mem_cons_of_mem a hb)

/-- **One step**: a variable only gets marks that are known. -/
theorem Step.within_apply {a : Step} {s : Run} (ha : a.Allowed known s.active) (hs : s.env.Within known) :
    (a.apply o s).env.Within known := by
  intro y m hm
  cases a with
  | query entryPoint =>
    rw [Step.apply] at hm
    unfold Run.queryEntryPoint at hm
    split at hm <;> exact hs y m hm
  | literal value =>
    rw [Step.apply, Run.literalTaint] at hm
    split at hm <;> exact hs y m hm
  | read x =>
    have hm : m ∈ (s.env.declare x).taintOf y := hm
    rw [Env.taintOf_declare] at hm
    exact hs y m hm
  | check function p x =>
    have hm : m ∈ (s.env.declare x).taintOf y := by
      rw [Step.apply, Run.checkArgument] at hm
      simp only at hm
      split at hm <;> exact hm
    rw [Env.taintOf_declare] at hm
    exact hs y m hm
  | clean function names =>
    have hm : m ∈ (names.foldl Env.sanitize s.env).taintOf y := hm
    rw [Env.taintOf_foldl_sanitize] at hm
    split at hm
    · simp at hm
    · exact hs y m hm
  | store x taint =>
    have hm : m ∈ ((s.env.declare x).assign x taint).taintOf y := hm
    rw [Env.taintOf_assign, Env.taintOf_declare] at hm
    split at hm
    · exact ha m hm
    · exact hs y m hm
  | enter guard => cases guard <;> exact hs y m hm
  | leave guard => cases guard <;> exact hs y m hm
  | environment e => exact ha y m hm
  | fallback | report | settled => exact hs y m hm

/-- **All steps**: the variables carry nothing but known marks. -/
theorem Run.within_perform {l : List Step} {s : Run} (h : Run.Allows o known l s) (hs : s.env.Within known) :
    (s.perform o l).env.Within known := by
  induction l generalizing s with
  | nil => exact hs
  | cons a l ih => exact ih h.2 (Step.within_apply h.1 hs)

end

/-! ## §2. The steps of expressions. -/

/-- Steps that depend on the run they start from. -/
abbrev Script := Run → List Step

/-- One script after another. -/
def Script.andThen (o : Options) (a b : Script) : Script := fun s => a s ++ b (s.perform o (a s))

/-- The steps of reading an entry point. -/
def lookupSteps (o : Options) : Option String → List Step
  | none => [.fallback "offsetlookup_without_name" ""]
  | some name => [.query (o.entryPointSign ++ name)]

/-- The steps of interpolating a text. -/
def interpolationSteps : List Node → List Step
  | [] => []
  | .var (some x) :: rest => .read x :: interpolationSteps rest
  | _ :: rest => interpolationSteps rest

/-- The steps of finding the variables among arguments. -/
def argumentSteps : List Node → List Step
  | [] => []
  | .var none :: rest => .fallback "variable_without_name" "" :: argumentSteps rest
  | _ :: rest => argumentSteps rest

/-- The steps of a call. -/
def callSteps (function : String) (arguments : List Node) : Script := fun s =>
  let sinks := Catalog.withSink function s.active
  let sanitizers := Catalog.withSanitizer function s.active
  let names := (Run.namedArguments arguments s).1
  if sinks = [] ∧ sanitizers = [] then []
  else
    argumentSteps arguments ++ (sinks.flatMap fun p => names.map (.check function p)) ++
      if sanitizers = [] ∨ names = [] then [] else [.clean function names]

mutual

/-- The steps of evaluating an expression. -/
def evaluationSteps (o : Options) : Node → Script
  | .offsetLookup name _ => fun _ => lookupSteps o name
  | .bin operator left right =>
    if operator = concatOperator then (evaluationSteps o left).andThen o (evaluationSteps o right) else fun _ => []
  | .string value => fun _ => [.literal value]
  | .encapsed parts => fun _ => interpolationSteps parts
  | .var (some x) => fun _ => [.read x]
  | .var none => fun _ => [.fallback "variable_without_name" ""]
  | .call none _ => fun _ => [.fallback "call_without_name" ""]
  | .call (some function) arguments =>
    if o.passesThrough function then firstSteps o arguments else callSteps function arguments
  | n => fun _ => [.fallback "unknown_expression" n.kindName]

/-- The steps of evaluating the first argument. -/
def firstSteps (o : Options) : List Node → Script
  | [] => fun _ => []
  | n :: _ => evaluationSteps o n

end

/-! ## §3. The steps of statements. -/

/-- The steps of giving a taint to the target of an assignment. -/
def assignmentSteps (target : Node) (taint : Taint) : List Step :=
  match target with
  | .var (some x) => [.store x taint]
  | target => [.fallback "assign_without_target" target.kindName]

/-- The steps of printing the value of an entry point. -/
def outputSteps (o : Options) (name : Option String) : Script := fun s =>
  lookupSteps o name ++
    ((s.lookupPatterns o name).1.filter fun p => o.echoSink ∈ p.sinks).map fun p =>
      .report p (.taintedOutput (name.getD "") p.name)

/-- The steps of printing arguments. -/
def echoSteps (o : Options) : List Node → Script
  | [] => fun _ => []
  | .offsetLookup name _ :: rest => (outputSteps o name).andThen o (echoSteps o rest)
  | _ :: rest => echoSteps o rest

/-- The steps of a conditional whose branches have the given steps. -/
def branchSteps (o : Options) (guard : Option String) (first second : Script) : Script := fun s =>
  let opening := .enter guard :: first (s.enter guard)
  let afterThen := s.perform o opening
  let middle := .environment s.env :: second (afterThen.withEnv s.env)
  let afterElse := afterThen.perform o middle
  opening ++ middle ++ [.leave guard, .environment (afterThen.env.join afterElse.env)]

/-- The steps of all rounds of a loop whose body has the given steps. -/
def roundSteps (o : Options) (body : Script) : (limit : Nat) → Script
  | 0, _ => []
  | limit + 1, s =>
    let next := s.perform o (body s)
    if s.env.weight < next.env.weight then body s ++ roundSteps o body limit next else body s

/-- The steps of a loop whose body has the given steps. -/
def loopSteps (o : Options) (body : Script) (limit : Run → Nat) : Script := fun s =>
  roundSteps o body (limit s) s ++ [.settled (settle (fun s => s.perform o (body s)) (limit s) s).2]

mutual

/-- The steps of executing a statement. -/
def executionSteps (o : Options) : Node → Script
  | .assign left right => fun s => evaluationSteps o right s ++ assignmentSteps left (evaluate o right s).1
  | .echo arguments => echoSteps o arguments
  | .cond test body alternate =>
    branchSteps o (o.guardOf test) (bodySteps o .branch false body) (alternateSteps o alternate)
  | .loop _ body => loopSteps o (bodySteps o .loop false body) (loopLimit body)
  | .block children => allSteps o children
  | .unknown rawKind _ => fun _ => [.fallback "unknown_statement" (rawKind.getD "None")]
  | n => fun _ => [.fallback "ignored_statement" n.kindName]

/-- The steps of the second branch of a conditional. -/
def alternateSteps (o : Options) : Option (List Node) → Script
  | none => fun _ => []
  | some body => bodySteps o .branch false body

/-- The steps of statements in a row. -/
def allSteps (o : Options) : List Node → Script
  | [] => fun _ => []
  | n :: rest => (executionSteps o n).andThen o (allSteps o rest)

/-- The steps of the body of a branch or a loop. -/
def bodySteps (o : Options) (c : Context) (started : Bool) : List Node → Script
  | [] => fun _ => []
  | n :: rest =>
    if o.executes c started n then (executionSteps o n).andThen o (bodySteps o c true rest)
    else Script.andThen o (fun _ => [.fallback c.skipReason n.kindName]) (bodySteps o c started rest)

end

/-- The state in which the analysis of a program begins. -/
def Run.initial (c : Catalog) (loading : Tally) : Run :=
  { Run.start c with diagnostics := Tally.empty.merge "ast_" loading.toList }

/-- The steps of the analysis of a program. -/
def Program.steps (o : Options) (c : Catalog) (loading : Tally) (p : Program) : List Step :=
  allSteps o p.children (Run.initial c loading)

/-! ## §4. Performing the steps. -/

/-- The script lists the steps of an evaluation: performing them leads to the same run, and if the variables and the
pending taint carry known marks and so do the marks that come up, then each step is allowed where it happens and the
result carries known marks. -/
structure Traces (o : Options) (pending : Taint) (a : Script) (e : Run → Taint × Run) : Prop where
  result : ∀ s : Run, s.perform o (a s) = (e s).2
  allowed : ∀ {known : String → Prop} {s : Run}, (∀ m ∈ pending, known m) → s.env.Within known →
    (∀ m ∈ introduced o (a s) s, known m) → Run.Allows o known (a s) s ∧ ∀ m ∈ (e s).1, known m

/-- The script lists the steps of an effect. -/
def Performs (o : Options) (a : Script) (f : Run → Run) : Prop := Traces o ∅ a fun s => (∅, f s)

namespace Traces

variable {o : Options} {pending : Taint}

/-- Nothing happens, and the pending taint is the result. -/
theorem done (t : Taint) : Traces o t (fun _ => []) fun s => (t, s) where
  result _ := rfl
  allowed ht _ _ := ⟨trivial, ht⟩

/-- One step. -/
theorem single {a : Step} {e : Run → Taint × Run} (hresult : ∀ s, a.apply o s = (e s).2)
    (hallowed : ∀ {known : String → Prop} {s : Run}, (∀ m ∈ pending, known m) → s.env.Within known →
      (∀ m ∈ a.introduces o s, known m) → a.Allowed known s.active ∧ ∀ m ∈ (e s).1, known m) :
    Traces o pending (fun _ => [a]) e where
  result := hresult
  allowed hpending hs hintroduced := by
    obtain ⟨ha, he⟩ := hallowed hpending hs fun m hm => hintroduced m (by simp [introduced, hm])
    exact ⟨⟨ha, trivial⟩, he⟩

/-- A continuation that depends on the result. -/
theorem bind {a : Script} {b : Taint → Script} {e : Run → Taint × Run} {k : Taint → Run → Taint × Run}
    (he : Traces o pending a e) (hk : ∀ t, Traces o t (b t) (k t)) :
    Traces o pending (fun s => a s ++ b (e s).1 (s.perform o (a s))) fun s => k (e s).1 (e s).2 where
  result s := by rw [Run.perform_append, he.result, (hk (e s).1).result]
  allowed {known s} hpending hs hintroduced := by
    obtain ⟨hfirst, hmarks⟩ := he.allowed hpending hs fun m hm => hintroduced m (mem_introduced_append.2 (.inl hm))
    -- the result of the first part is what is pending for the second
    have hmiddle : (s.perform o (a s)).env.Within known := Run.within_perform hfirst hs
    obtain ⟨hsecond, hresult⟩ := (hk (e s).1).allowed hmarks hmiddle fun m hm =>
      hintroduced m (mem_introduced_append.2 (.inr hm))
    rw [he.result] at hresult
    exact ⟨Run.allows_append.2 ⟨hfirst, hsecond⟩, hresult⟩

/-- A script that needs no pending taint may be given one. -/
theorem weaken {a : Script} {e : Run → Taint × Run} (h : Traces o ∅ a e) (t : Taint) : Traces o t a e where
  result := h.result
  allowed _ hs hintroduced := h.allowed (by simp) hs hintroduced

/-- The pending taint is united with the result. -/
theorem unite {a : Script} {e : Run → Taint × Run} (h : Traces o ∅ a e) (t : Taint) :
    Traces o t a fun s => (t ∪ (e s).1, (e s).2) where
  result := h.result
  allowed ht hs hintroduced := by
    obtain ⟨ha, he⟩ := (h.weaken t).allowed ht hs hintroduced
    refine ⟨ha, fun m hm => ?_⟩
    rcases OrderedSet.mem_union.1 hm with hm | hm
    · exact ht m hm
    · exact he m hm

theorem fallback (reason detail : String) :
    Traces o pending (fun _ => [.fallback reason detail]) fun s => (∅, s.fallback reason detail) :=
  single (fun _ => rfl) fun _ _ _ => ⟨trivial, by simp⟩

theorem read (x : String) : Traces o pending (fun _ => [.read x]) fun s => s.read x :=
  single (fun _ => rfl) fun _ hs _ => ⟨trivial, hs x⟩

/-- An effect whose steps are allowed, whatever the marks are. -/
theorem ofEffect {a : Script} {f : Run → Run} (hresult : ∀ s : Run, s.perform o (a s) = f s)
    (hallowed : ∀ (known : String → Prop) (s : Run), Run.Allows o known (a s) s) : Performs o a f where
  result := hresult
  allowed _ _ _ := ⟨hallowed _ _, by simp⟩

end Traces

namespace Performs

variable {o : Options}

theorem idle : Performs o (fun _ => []) id := Traces.done ∅

theorem enter (guard : Option String) : Performs o (fun _ => [.enter guard]) fun s => s.enter guard :=
  Traces.single (fun _ => rfl) fun _ _ _ => ⟨trivial, by simp⟩

theorem andThen {a b : Script} {f g : Run → Run} (hf : Performs o a f) (hg : Performs o b g) :
    Performs o (a.andThen o b) (g ∘ f) :=
  Traces.bind hf fun t => Traces.weaken hg t

end Performs

/-! ## §5. Expressions. -/

section Evaluation

variable (o : Options)

/-- What is known of the patterns that are asked for is known of the result. -/
theorem traces_lookup (name : Option String) : Traces o ∅ (fun _ => lookupSteps o name)
    fun s => (.ofList ((s.lookupPatterns o name).1.map (·.name)), (s.lookupPatterns o name).2) := by
  cases name with
  | none => exact Traces.fallback "offsetlookup_without_name" ""
  | some name => exact Traces.single (fun _ => rfl) fun _ _ hintroduced => ⟨trivial, hintroduced⟩

theorem traces_interpolate (parts : List Node) :
    ∀ taint : Taint, Traces o taint (fun _ => interpolationSteps parts) (Run.interpolate taint parts) := by
  induction parts with
  | nil => exact fun taint => Traces.done taint
  | cons n rest ih =>
    intro taint
    match n with
    | .var (some x) => exact Traces.bind (Traces.unite (Traces.read x) taint) fun t => ih t
    | .var none | .unknown .. | .string _ | .offsetLookup .. | .bin .. | .call .. | .encapsed _ | .assign ..
    | .echo _ | .cond .. | .loop .. | .block _ => exact ih taint

theorem perform_argumentSteps (arguments : List Node) :
    ∀ s : Run, s.perform o (argumentSteps arguments) = (Run.namedArguments arguments s).2 := by
  induction arguments with
  | nil => exact fun _ => rfl
  | cons n rest ih =>
    intro s
    match n with
    | .var (some x) => exact ih s
    | .var none => exact ih (s.fallback "variable_without_name" "")
    | .unknown .. | .string _ | .offsetLookup .. | .bin .. | .call .. | .encapsed _ | .assign .. | .echo _
    | .cond .. | .loop .. | .block _ => exact ih s

theorem mem_argumentSteps {arguments : List Node} {a : Step} (h : a ∈ argumentSteps arguments) :
    a = .fallback "variable_without_name" "" := by
  induction arguments with
  | nil => cases h
  | cons n rest ih =>
    match n with
    | .var none =>
      rcases List.mem_cons.1 h with h | h
      · exact h
      · exact ih h
    | .var (some _) | .unknown .. | .string _ | .offsetLookup .. | .bin .. | .call .. | .encapsed _ | .assign ..
    | .echo _ | .cond .. | .loop .. | .block _ => exact ih h

theorem perform_checks (function : String) (sinks : List Pattern) (names : List String) (s : Run) :
    s.perform o (sinks.flatMap fun p => names.map (.check function p))
      = sinks.foldl (Run.checkSink function names) s := by
  unfold Run.perform
  rw [List.foldl_flatMap]
  simp only [List.foldl_map]
  rfl

/-- The sinks of a call are patterns under consideration, and they still are when they are checked. -/
theorem performs_call (function : String) (arguments : List Node) :
    Performs o (callSteps function arguments) fun s => s.call function arguments := by
  refine Traces.ofEffect (fun s => ?_) fun known s => ?_
  · unfold callSteps
    by_cases hnone : Catalog.withSink function s.active = [] ∧ Catalog.withSanitizer function s.active = []
    · rw [call_of_none hnone, if_pos hnone, Run.perform_nil]
    · rw [call_of_some hnone, if_neg hnone, Run.perform_append, Run.perform_append, perform_argumentSteps,
        perform_checks]
      split <;> rfl
  · -- a call asks for no entry point, so what is a sink at its beginning is one to its end
    refine Run.allows_of_forall fun a ha => ?_
    unfold callSteps at ha
    simp only at ha
    split at ha
    · cases ha
    · rcases List.mem_append.1 ha with ha | ha
      · rcases List.mem_append.1 ha with ha | ha
        · rw [mem_argumentSteps ha]
          exact ⟨rfl, trivial⟩
        · obtain ⟨p, hp, ha⟩ := List.mem_flatMap.1 ha
          obtain ⟨x, _, rfl⟩ := List.mem_map.1 ha
          exact ⟨rfl, List.mem_of_mem_filter hp⟩
      · split at ha
        · cases ha
        · rw [List.mem_singleton.1 ha]
          exact ⟨rfl, trivial⟩

/-- **Expressions**: the marks of the result were carried by variables or have come up. -/
theorem traces_evaluate (n : Node) : Traces o ∅ (evaluationSteps o n) (evaluate o n) := by
  induction n using Node.induction with
  | step n ih =>
    cases n with
    | offsetLookup name offset => exact traces_lookup o name
    | bin operator left right =>
      by_cases hconcat : operator = concatOperator
      · subst hconcat
        rw [evaluate_concat, evaluationSteps, if_pos rfl]
        exact Traces.bind (ih left (by simp [Node.children])) fun t =>
          Traces.unite (ih right (by simp [Node.children])) t
      · have hevaluate : evaluate o (.bin operator left right) = fun s => (∅, s) := funext fun _ => if_neg hconcat
        rw [hevaluate, evaluationSteps, if_neg hconcat]
        exact Traces.done ∅
    | string value => exact Traces.single (fun _ => rfl) fun _ _ hintroduced => ⟨trivial, hintroduced⟩
    | encapsed parts => exact traces_interpolate o parts ∅
    | var name =>
      cases name with
      | none => exact Traces.fallback "variable_without_name" ""
      | some x => exact Traces.read x
    | call name arguments =>
      cases name with
      | none => exact Traces.fallback "call_without_name" ""
      | some function =>
        cases hpass : o.passesThrough function with
        | false =>
          rw [evaluate_call hpass, evaluationSteps, hpass]
          exact performs_call o function arguments
        | true =>
          cases arguments with
          | nil =>
            have hevaluate : evaluate o (.call (some function) []) = fun s => (∅, s) := funext fun _ => if_pos hpass
            rw [hevaluate, evaluationSteps, if_pos hpass]
            exact Traces.done ∅
          | cons argument rest =>
            rw [evaluate_pass hpass, evaluationSteps, if_pos hpass]
            exact ih argument (by simp [Node.children])
    | unknown | assign | echo | cond | loop | block => exact Traces.fallback "unknown_expression" (Node.kindName _)

end Evaluation

/-! ## §6. Statements. -/

section Execution

variable (o : Options)

theorem traces_assignment (target : Node) (taint : Taint) :
    Traces o taint (fun _ => assignmentSteps target taint) fun s => (∅, s.assign target taint) := by
  by_cases h : ∃ x, target = .var (some x)
  · obtain ⟨x, rfl⟩ := h
    exact Traces.single (fun _ => rfl) fun htaint _ _ => ⟨htaint, by simp⟩
  · have hsteps : assignmentSteps target taint = [.fallback "assign_without_target" target.kindName] := by
      rw [assignmentSteps]
      exact fun x hx => h ⟨x, hx⟩
    have hassign : ∀ s : Run, s.assign target taint = s.fallback "assign_without_target" target.kindName := by
      intro s
      rw [Run.assign]
      exact fun x hx => h ⟨x, hx⟩
    simp only [hsteps, hassign]
    exact Traces.fallback "assign_without_target" target.kindName

/-- The patterns that were asked for are under consideration afterwards, in both modes. -/
theorem mem_active_of_mem_lookupPatterns {name : Option String} {s : Run} {p : Pattern}
    (h : p ∈ (s.lookupPatterns o name).1) : p ∈ (s.lookupPatterns o name).2.active := by
  cases name with
  | none => cases h
  | some name =>
    unfold Run.lookupPatterns Run.queryEntryPoint at h ⊢
    match hmode : o.narrowing with
    | .scoped =>
      rw [hmode] at h
      exact List.mem_of_mem_filter h
    | .legacy =>
      rw [hmode] at h
      exact h

theorem performs_output (name : Option String) : Performs o (outputSteps o name) fun s => s.echoLookup o name where
  result s := by
    unfold outputSteps Run.echoLookup
    rw [Run.perform_append, (traces_lookup o name).result]
    unfold Run.perform
    rw [List.foldl_map, List.foldl_filter]
    simp only [decide_eq_true_eq]
    rfl
  allowed {known s} _ hs hintroduced := by
    have hlookup := traces_lookup o name
    obtain ⟨hfirst, _⟩ := hlookup.allowed (by simp) hs fun m hm => hintroduced m (mem_introduced_append.2 (.inl hm))
    -- the reports come after the query, which may have dropped patterns, but not those it found
    refine ⟨Run.allows_append.2 ⟨hfirst, Run.allows_of_forall fun a ha => ?_⟩, by simp⟩
    obtain ⟨p, hp, rfl⟩ := List.mem_map.1 ha
    rw [hlookup.result]
    exact ⟨rfl, mem_active_of_mem_lookupPatterns o (List.mem_of_mem_filter hp)⟩

theorem performs_echo (arguments : List Node) : Performs o (echoSteps o arguments) (Run.echo o arguments) := by
  induction arguments with
  | nil => exact Performs.idle
  | cons n rest ih =>
    match n with
    | .offsetLookup name offset => exact Performs.andThen (performs_output o name) ih
    | .unknown .. | .var _ | .string _ | .bin .. | .call .. | .encapsed _ | .assign .. | .echo _
    | .cond .. | .loop .. | .block _ => exact ih

variable {o}

/-- **Conditionals**: the branches begin in the environment of the conditional, and the marks of both meet behind it. -/
theorem performs_branch (guard : Option String) {a b : Script} {f g : Run → Run} (hf : Performs o a f)
    (hg : Performs o b g) : Performs o (branchSteps o guard a b) (branch guard f g) where
  result s := by
    unfold branchSteps branch
    simp only [Run.perform_append, Run.perform_cons, Run.perform_nil, Step.apply, hf.result, hg.result]
  allowed {known s} _ hs hintroduced := by
    have hopens : Performs o (fun s => .enter guard :: a (s.enter guard)) (f ∘ fun s => s.enter guard) :=
      Performs.andThen (Performs.enter guard) hf
    -- the three parts: up to the end of the first branch, the second branch, and what comes behind both
    let opening := Step.enter guard :: a (s.enter guard)
    let middle := Step.environment s.env :: b ((s.perform o opening).withEnv s.env)
    have hfirst : Run.Allows o known opening s := (hopens.allowed (by simp) hs fun m hm =>
      hintroduced m (mem_introduced_append.2 (.inl (mem_introduced_append.2 (.inl hm))))).1
    have hsecond : Run.Allows o known middle (s.perform o opening) := by
      let back := (s.perform o opening).withEnv s.env
      refine ⟨hs, (hg.allowed (s := back) (by simp) hs fun m hm => hintroduced m ?_).1⟩
      refine mem_introduced_append.2 (.inl (mem_introduced_append.2 (.inr ?_)))
      exact OrderedSet.mem_union.2 (.inr hm)
    have hthen := Run.within_perform hfirst hs
    have helse := Run.within_perform hsecond hthen
    refine ⟨Run.allows_append.2 ⟨Run.allows_append.2 ⟨hfirst, hsecond⟩, trivial, fun x m hm => ?_, trivial⟩, by simp⟩
    rcases Env.mem_taintOf_join.1 hm with hm | hm
    · exact hthen x m hm
    · exact helse x m hm

/-- **Loops**: the rounds follow each other. -/
theorem performs_rounds {a : Script} {f : Run → Run} (h : Performs o a f) :
    ∀ limit : Nat, Performs o (roundSteps o a limit) fun s => (settle f limit s).1 := by
  intro limit
  induction limit with
  | zero => exact Performs.idle
  | succ limit ih =>
    refine ⟨fun s => ?_, fun {known s} _ hs hintroduced => ⟨?_, by simp⟩⟩
    · show s.perform o (roundSteps o a (limit + 1) s) = (settle f (limit + 1) s).1
      rw [roundSteps, settle, h.result]
      split
      · rw [Run.perform_append, h.result, ih.result]
      · exact h.result s
    · -- a round that adds nothing is the last one, but its steps happen too
      rw [roundSteps] at hintroduced ⊢
      by_cases hgrows : s.env.weight < (s.perform o (a s)).env.weight
      · rw [if_pos hgrows] at hintroduced ⊢
        exact ((Performs.andThen h ih).allowed (by simp) hs hintroduced).1
      · rw [if_neg hgrows] at hintroduced ⊢
        exact (h.allowed (by simp) hs hintroduced).1

theorem performs_loop {a : Script} {f : Run → Run} (h : Performs o a f) (limit : Run → Nat) :
    Performs o (loopSteps o a limit) (repeatBody f limit) := by
  have heffect : (fun s : Run => s.perform o (a s)) = f := funext h.result
  refine ⟨fun s => ?_, fun {known s} _ hs hintroduced => ⟨?_, by simp⟩⟩
  · unfold loopSteps repeatBody
    rw [heffect, Run.perform_append, (performs_rounds h (limit s)).result]
    rfl
  · have hrounds := ((performs_rounds h (limit s)).allowed (by simp) hs fun m hm =>
      hintroduced m (mem_introduced_append.2 (.inl hm))).1
    exact Run.allows_append.2 ⟨hrounds, trivial, trivial⟩

theorem performs_all {ns : List Node} (h : ∀ n ∈ ns, Performs o (executionSteps o n) (execute o n)) :
    Performs o (allSteps o ns) (executeAll o ns) := by
  induction ns with
  | nil => exact Performs.idle
  | cons n rest ih =>
    rw [executeAll_cons, allSteps]
    exact Performs.andThen (h n List.mem_cons_self) (ih fun m hm => h m (List.mem_cons_of_mem n hm))

theorem performs_body {ns : List Node} (h : ∀ n ∈ ns, Performs o (executionSteps o n) (execute o n)) (c : Context) :
    ∀ started : Bool, Performs o (bodySteps o c started ns) (executeBody o c started ns) := by
  induction ns with
  | nil => exact fun _ => Performs.idle
  | cons n rest ih =>
    intro started
    have hrest := ih fun m hm => h m (List.mem_cons_of_mem n hm)
    cases hn : o.executes c started n with
    | true =>
      rw [executeBody_cons_of_executes hn, bodySteps, if_pos hn]
      exact Performs.andThen (h n List.mem_cons_self) (hrest true)
    | false =>
      rw [executeBody_cons_of_skips hn, bodySteps, if_neg (by simp [hn])]
      exact Performs.andThen (Traces.fallback _ _) (hrest started)

/-- **Statements**: their steps are what executing them does. -/
theorem performs_execute (n : Node) : Performs o (executionSteps o n) (execute o n) := by
  induction n using Node.induction with
  | step n ih =>
    cases n with
    | assign left right =>
      rw [execute_assign]
      exact Traces.bind (traces_evaluate o right) fun taint => traces_assignment o left taint
    | echo arguments => exact performs_echo o arguments
    | cond test body alternate =>
      rw [execute_cond, executionSteps]
      refine performs_branch _ (performs_body (fun n hn => ih n (by simp [Node.children, hn])) .branch false) ?_
      cases alternate with
      | none => exact Performs.idle
      | some other => exact performs_body (fun n hn => ih n (by simp [Node.children, hn])) .branch false
    | loop test body =>
      rw [execute_loop, executionSteps]
      exact performs_loop (performs_body (fun n hn => ih n (by simp [Node.children, hn])) .loop false) (loopLimit body)
    | block children => exact performs_all fun n hn => ih n hn
    | unknown rawKind reason => exact Traces.fallback "unknown_statement" (rawKind.getD "None")
    | var | string | offsetLookup | bin | call | encapsed =>
      exact Traces.fallback "ignored_statement" (Node.kindName _)

/-- **A whole run**: performing its steps leads to its final state. -/
theorem perform_steps (o : Options) (c : Catalog) (loading : Tally) (p : Program) :
    (Run.initial c loading).perform o (p.steps o c loading) = p.run o c loading :=
  (performs_all fun n _ => performs_execute n).result (Run.initial c loading)

theorem Run.within_initial (known : String → Prop) (c : Catalog) (loading : Tally) :
    (Run.initial c loading).env.Within known := by
  intro x m hm
  have hnone : m ∈ (∅ : Taint) := hm
  simp at hnone

/-- Each step of a run is allowed where it happens, and no marks are known but those that come up. -/
theorem allows_steps (o : Options) (c : Catalog) (loading : Tally) (p : Program) :
    Run.Allows o (· ∈ introduced o (p.steps o c loading) (Run.initial c loading)) (p.steps o c loading)
      (Run.initial c loading) :=
  ((performs_all fun n _ => performs_execute n).allowed (by simp) (Run.within_initial _ c loading) fun _ hm => hm).1

/-- No variable ends up with a mark that has not come up. -/
theorem within_run (o : Options) (c : Catalog) (loading : Tally) (p : Program) :
    (p.run o c loading).env.Within (· ∈ introduced o (p.steps o c loading) (Run.initial c loading)) := by
  rw [← perform_steps]
  exact Run.within_perform (allows_steps o c loading p) (Run.within_initial _ c loading)

end Execution

end TaintFlow
