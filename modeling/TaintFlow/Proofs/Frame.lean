/-
  TaintFlow.Proofs.Frame
  ──────────────────────
  **What an execution reads, and what it only adds to.**

  An execution reads the patterns under consideration, the environment and the guards: the
  setting of a run.  The verdict, the counts and the events are its output; it never reads
  them and only adds to them.

    • `Framed` — an effect determines the new setting and the added output from the old
      setting alone,
    • `framed_evaluate`, `framed_execute`, `framed_executeBody` — evaluation and execution are
      framed, whatever the options are.
-/
import TaintFlow.Proofs.Environment
import TaintFlow.Proofs.Statement

namespace TaintFlow

/-! ## §1. Settings and output. -/

/-- What is added to the verdict, the counts and the events.  Events stand with the newest first. -/
structure Output where
  violated : List String := []
  sanitizers : List String := []
  iterations : Nat := 0
  reasons : List String := []
  events : List Event := []

/-- One output after another. -/
def Output.append (a b : Output) : Output where
  violated := a.violated ++ b.violated
  sanitizers := a.sanitizers ++ b.sanitizers
  iterations := a.iterations + b.iterations
  reasons := a.reasons ++ b.reasons
  events := b.events ++ a.events

/-- An output violates a pattern if one of its two parts does. -/
theorem Output.violates_append (a b : Output) :
    (!a.violated.isEmpty || !b.violated.isEmpty) = !(a.violated ++ b.violated).isEmpty := by
  cases a.violated <;> simp

namespace Run

/-- The run with more output. -/
def emit (s : Run) (d : Output) : Run :=
  { s with
    verdict :=
      { vulnerable := s.verdict.vulnerable || !d.violated.isEmpty,
        violatedPatterns := s.verdict.violatedPatterns ++ d.violated,
        sanitizersApplied := s.verdict.sanitizersApplied ++ d.sanitizers,
        loopIterations := s.verdict.loopIterations + d.iterations },
    diagnostics := d.reasons.foldl Tally.record s.diagnostics,
    events := d.events ++ s.events }

/-- The run with the setting of another. -/
def adopt (s other : Run) : Run :=
  { s with active := other.active, env := other.env, guards := other.guards }

/-- The runs have the same setting. -/
structure Agrees (s t : Run) : Prop where
  active : s.active = t.active
  env : s.env = t.env
  guards : s.guards = t.guards

theorem Agrees.refl (s : Run) : s.Agrees s := ⟨rfl, rfl, rfl⟩

theorem Agrees.adopt_eq {s t : Run} (h : s.Agrees t) : s.adopt t = s := by
  obtain ⟨hactive, henv, hguards⟩ := h
  unfold adopt
  rw [← hactive, ← henv, ← hguards]

theorem agrees_emit_adopt (s t : Run) (d : Output) : ((s.adopt t).emit d).Agrees t := ⟨rfl, rfl, rfl⟩

@[simp] theorem emit_nothing (s : Run) : s.emit {} = s := by
  simp [emit]

/-- Changing the setting and adding output do not disturb each other. -/
theorem emit_adopt_emit (s t u : Run) (d e : Output) :
    (((s.adopt t).emit d).adopt u).emit e = (s.adopt u).emit (d.append e) := by
  simp [emit, adopt, Output.append, Nat.add_assoc, Bool.or_assoc, List.foldl_append, Output.violates_append d e]

/-- The elementary changes of verdict, counts and events as output. -/
theorem log_eq_emit (s : Run) (e : Event) : s.log e = s.emit { events := [e] } := by
  simp [emit, log]

theorem fallback_eq_emit (s : Run) (reason detail : String) :
    s.fallback reason detail = s.emit { reasons := [reason], events := [.fallback reason detail] } := by
  simp [emit, fallback, log]

theorem report_eq_emit (s : Run) (p : String) (e : Event) :
    { s with verdict := s.verdict.markVulnerable p }.log e = s.emit { violated := [p], events := [e] } := by
  simp [emit, log, Verdict.markVulnerable]

theorem applySanitizer_eq_emit (s : Run) (function : String) (names : List String) :
    s.applySanitizer function names
      = (s.withEnv (names.foldl Env.sanitize s.env)).emit { sanitizers := [function] } := by
  simp [emit, applySanitizer, withEnv, Verdict.recordSanitizer]

theorem finishLoop_eq_emit (s : Run) (k : Nat) :
    s.finishLoop k = s.emit { iterations := k, events := [.loopSettled k] } := by
  simp [emit, finishLoop, log, Verdict.addIterations]

end Run

/-- The setting of the second run can follow that of the first: no variable is forgotten, and no
pattern comes back into consideration. -/
structure Run.Leads (o : Options) (s t : Run) : Prop where
  guards : t.guards = s.guards
  names : s.env.names <+: t.env.names
  active : t.active.Sublist s.active
  fixed : o.narrowing = .scoped → t.active = s.active

namespace Run.Leads

variable {o : Options} {s t u : Run}

theorem refl (o : Options) (s : Run) : s.Leads o s :=
  ⟨rfl, List.prefix_refl _, List.Sublist.refl _, fun _ => rfl⟩

theorem trans (hst : s.Leads o t) (htu : t.Leads o u) : s.Leads o u where
  guards := htu.guards.trans hst.guards
  names := hst.names.trans htu.names
  active := htu.active.trans hst.active
  fixed h := (htu.fixed h).trans (hst.fixed h)

end Run.Leads

/-! ## §2. Framed effects. -/

/-- **The frame property** of a step with a result: it leads on from every setting, and the
result, the new setting and the output that is added are the same for all runs with one
setting. -/
structure FramedStep (o : Options) {α : Type} (e : Run → α × Run) : Prop where
  leads : ∀ s : Run, s.Leads o (e s).2
  output : ∀ s, ∃ d : Output, ∀ t : Run, t.Agrees s → e t = ((e s).1, (t.adopt (e s).2).emit d)

/-- The frame property of an effect. -/
def Framed (o : Options) (f : Run → Run) : Prop := FramedStep o fun s => ((), f s)

namespace FramedStep

variable {o : Options} {α β : Type}

theorem pure (a : α) : FramedStep o fun s => (a, s) where
  leads := Run.Leads.refl o
  output s := by
    refine ⟨{}, fun t ht => ?_⟩
    rw [ht.adopt_eq, Run.emit_nothing]

/-- A step whose continuation depends on its result. -/
theorem bind {e : Run → α × Run} {k : α → Run → β × Run} (he : FramedStep o e)
    (hk : ∀ a, FramedStep o (k a)) : FramedStep o fun s => k (e s).1 (e s).2 where
  leads s := (he.leads s).trans ((hk (e s).1).leads (e s).2)
  output s := by
    obtain ⟨d, hd⟩ := he.output s
    obtain ⟨d', hd'⟩ := (hk (e s).1).output (e s).2
    refine ⟨d.append d', fun t ht => ?_⟩
    show k (e t).1 (e t).2 = _
    rw [hd t ht, hd' _ (Run.agrees_emit_adopt t (e s).2 d), Run.emit_adopt_emit]

/-- It is enough that the step acts on the runs of each setting like some framed one. -/
theorem of_setting {e : Run → α × Run}
    (h : ∀ s, ∃ g, FramedStep o g ∧ ∀ t : Run, t.Agrees s → e t = g t) : FramedStep o e where
  leads s := by
    obtain ⟨g, hg, heq⟩ := h s
    rw [heq s (Run.Agrees.refl s)]
    exact hg.leads s
  output s := by
    obtain ⟨g, hg, heq⟩ := h s
    obtain ⟨d, hd⟩ := hg.output s
    refine ⟨d, fun t ht => ?_⟩
    rw [heq t ht, heq s (Run.Agrees.refl s)]
    exact hd t ht

end FramedStep

namespace Framed

variable {o : Options}

theorem intro {f : Run → Run} (hleads : ∀ s : Run, s.Leads o (f s))
    (h : ∀ s, ∃ d : Output, ∀ t : Run, t.Agrees s → f t = (t.adopt (f s)).emit d) : Framed o f where
  leads := hleads
  output s := by
    obtain ⟨d, hd⟩ := h s
    exact ⟨d, fun t ht => congrArg (Prod.mk ()) (hd t ht)⟩

theorem leads {f : Run → Run} (h : Framed o f) (s : Run) : s.Leads o (f s) := FramedStep.leads h s

theorem output {f : Run → Run} (h : Framed o f) (s : Run) :
    ∃ d : Output, ∀ t : Run, t.Agrees s → f t = (t.adopt (f s)).emit d := by
  obtain ⟨d, hd⟩ := FramedStep.output h s
  exact ⟨d, fun t ht => congrArg Prod.snd (hd t ht)⟩

/-- Runs with one setting are led to runs with one setting. -/
theorem agrees {f : Run → Run} (h : Framed o f) {s t : Run} (hts : t.Agrees s) : (f t).Agrees (f s) := by
  obtain ⟨d, hd⟩ := h.output s
  rw [hd t hts]
  exact Run.agrees_emit_adopt t (f s) d

theorem idle : Framed o id := FramedStep.pure ()

theorem andThen {f g : Run → Run} (hf : Framed o f) (hg : Framed o g) : Framed o (g ∘ f) :=
  FramedStep.bind hf fun _ => hg

/-- An effect after a step, which may depend on the step's result. -/
theorem after {α : Type} {e : Run → α × Run} {k : α → Run → Run} (he : FramedStep o e)
    (hk : ∀ a, Framed o (k a)) : Framed o fun s => k (e s).1 (e s).2 :=
  FramedStep.bind he hk

theorem foldl {α : Type} {f : Run → α → Run} (hf : ∀ a, Framed o fun s => f s a) (l : List α) :
    Framed o fun s => l.foldl f s := by
  induction l with
  | nil => exact idle
  | cons a l ih => exact andThen (hf a) ih

theorem of_setting {f : Run → Run} (h : ∀ s, ∃ g, Framed o g ∧ ∀ t : Run, t.Agrees s → f t = g t) :
    Framed o f := by
  refine FramedStep.of_setting fun s => ?_
  obtain ⟨g, hg, heq⟩ := h s
  exact ⟨_, hg, fun t ht => congrArg (Prod.mk ()) (heq t ht)⟩

theorem emit (d : Output) : Framed o fun s => s.emit d := by
  refine intro (fun s => ⟨rfl, List.prefix_refl _, List.Sublist.refl _, fun _ => rfl⟩) fun s => ⟨d, fun t ht => ?_⟩
  show t.emit d = (t.adopt s).emit d
  rw [ht.adopt_eq]

/-- A change of the environment that depends on the environment only and forgets no variable. -/
theorem changeEnv {g : Env String → Env String} (hg : ∀ e : Env String, e.names <+: (g e).names) :
    Framed o fun s => s.withEnv (g s.env) := by
  refine intro (fun s => ⟨rfl, hg s.env, List.Sublist.refl _, fun _ => rfl⟩) fun s => ⟨{}, fun t ht => ?_⟩
  obtain ⟨hactive, henv, hguards⟩ := ht
  rw [Run.emit_nothing, henv]
  show t.withEnv (g s.env) = { t with active := s.active, env := g s.env, guards := s.guards }
  rw [← hactive, ← hguards]
  rfl

theorem fallback (reason detail : String) : Framed o fun s => s.fallback reason detail := by
  simp only [Run.fallback_eq_emit]
  exact emit _

theorem log (e : Event) : Framed o fun s => s.log e := by
  simp only [Run.log_eq_emit]
  exact emit _

theorem sequential (o : Options) : Sequential (Framed o) where
  idle := idle
  andThen := andThen
  fallback := fallback

end Framed

/-! ## §3. Evaluation. -/

variable (o : Options)

theorem framed_read (x : String) : FramedStep o fun s => s.read x := by
  have hdeclare := Framed.changeEnv (o := o) fun e => Env.names_prefix_declare e x
  refine ⟨fun s => hdeclare.leads s, fun s => ?_⟩
  obtain ⟨d, hd⟩ := hdeclare.output s
  refine ⟨d, fun t ht => Prod.ext ?_ (hd t ht)⟩
  show t.env.taintOf x = s.env.taintOf x
  rw [ht.env]

theorem framed_lookupPatterns (name : Option String) : FramedStep o fun s => s.lookupPatterns o name := by
  cases name with
  | none => exact FramedStep.bind (Framed.fallback "offsetlookup_without_name" "") fun _ => FramedStep.pure []
  | some name =>
    unfold Run.lookupPatterns Run.queryEntryPoint
    match hmode : o.narrowing with
    | .scoped =>
      refine ⟨Run.Leads.refl o, fun s => ⟨{}, fun t ht => ?_⟩⟩
      rw [ht.adopt_eq, Run.emit_nothing, ht.active]
    | .legacy =>
      refine ⟨fun s => ⟨rfl, List.prefix_refl _, List.filter_sublist, fun h => ?_⟩, fun s => ⟨{}, fun t ht => ?_⟩⟩
      · rw [hmode] at h
        cases h
      · obtain ⟨hactive, henv, hguards⟩ := ht
        rw [Run.emit_nothing]
        unfold Run.adopt
        simp only [← hactive, ← henv, ← hguards]

theorem framed_literalTaint (value : String) : FramedStep o fun s => s.literalTaint o value := by
  refine FramedStep.of_setting fun s => ?_
  by_cases h : o.guardedLiterals = true ∧ s.guard? = some value
  · refine ⟨_, FramedStep.bind (Framed.log (.guardedLiteral value)) fun _ =>
      FramedStep.pure s.activeNames, fun t ht => ?_⟩
    have hguard : o.guardedLiterals = true ∧ t.guard? = some value := by
      unfold Run.guard?
      rw [ht.guards]
      exact h
    unfold Run.literalTaint Run.activeNames
    rw [if_pos hguard, ht.active]
  · refine ⟨_, FramedStep.pure ∅, fun t ht => ?_⟩
    have hguard : ¬ (o.guardedLiterals = true ∧ t.guard? = some value) := by
      unfold Run.guard?
      rw [ht.guards]
      exact h
    unfold Run.literalTaint
    rw [if_neg hguard]

theorem framed_interpolate (parts : List Node) :
    ∀ taint : Taint, FramedStep o fun s => Run.interpolate taint parts s := by
  induction parts with
  | nil => exact fun taint => FramedStep.pure taint
  | cons n rest ih =>
    intro taint
    by_cases hn : ∃ x, n = .var (some x)
    · obtain ⟨x, rfl⟩ := hn
      exact FramedStep.bind (framed_read o x) fun t => ih (taint ∪ t)
    · simp only [interpolate_cons_of_ne fun x hx => hn ⟨x, hx⟩]
      exact ih taint

theorem framed_namedArguments (arguments : List Node) :
    FramedStep o fun s => Run.namedArguments arguments s := by
  induction arguments with
  | nil => exact FramedStep.pure []
  | cons n rest ih =>
    match n with
    | .var (some x) => exact FramedStep.bind ih fun names => FramedStep.pure (x :: names)
    | .var none => exact FramedStep.bind (Framed.fallback "variable_without_name" "") fun _ => ih
    | .unknown .. | .string _ | .offsetLookup .. | .bin .. | .call .. | .encapsed _ | .assign .. | .echo _
    | .cond .. | .loop .. | .block _ => exact ih

/-- Reporting a pattern is framed. -/
theorem framed_report (p : String) (e : Event) :
    Framed o fun s => { s with verdict := s.verdict.markVulnerable p }.log e := by
  simp only [Run.report_eq_emit]
  exact Framed.emit _

theorem framed_checkArgument (function : String) (p : Pattern) (x : String) :
    Framed o fun s => Run.checkArgument function p s x := by
  refine Framed.after (framed_read o x) (k := fun taint s =>
    if p.name ∈ taint then
      { s with verdict := s.verdict.markVulnerable p.name }.log (.taintedCall x function p.name)
    else s) fun taint => ?_
  by_cases h : p.name ∈ taint
  · simp only [if_pos h]
    exact framed_report o p.name (.taintedCall x function p.name)
  · simp only [if_neg h]
    exact Framed.idle

theorem framed_checkSink (function : String) (names : List String) (p : Pattern) :
    Framed o fun s => Run.checkSink function names s p :=
  Framed.foldl (framed_checkArgument o function p) names

theorem framed_applySanitizer (function : String) (names : List String) :
    Framed o fun s => s.applySanitizer function names := by
  simp only [Run.applySanitizer_eq_emit]
  exact (Framed.changeEnv (Env.names_prefix_foldl_sanitize names)).andThen (Framed.emit _)

theorem framed_call (function : String) (arguments : List Node) :
    Framed o fun s => s.call function arguments := by
  refine Framed.of_setting fun s => ?_
  -- the sinks and sanitizers are those of the setting
  by_cases hnone : Catalog.withSink function s.active = [] ∧ Catalog.withSanitizer function s.active = []
  · exact ⟨id, Framed.idle, fun t ht => call_of_none (ht.active ▸ hnone) arguments⟩
  · refine ⟨_, Framed.after (framed_namedArguments o arguments) (k := fun names s' =>
      if Catalog.withSanitizer function s.active = [] ∨ names = [] then
        (Catalog.withSink function s.active).foldl (Run.checkSink function names) s'
      else ((Catalog.withSink function s.active).foldl (Run.checkSink function names) s').applySanitizer
        function names) fun names => ?_, fun t ht => ?_⟩
    · have hsinks := Framed.foldl (framed_checkSink o function names) (Catalog.withSink function s.active)
      split
      · exact hsinks
      · exact hsinks.andThen (framed_applySanitizer o function names)
    · show t.call function arguments = _
      rw [call_of_some (ht.active ▸ hnone), ht.active]

theorem framed_evaluate (n : Node) : FramedStep o (evaluate o n) := by
  induction n using expression_induction o with
  | lookup name offset =>
    rw [evaluate_lookup]
    exact FramedStep.bind (framed_lookupPatterns o name) fun patterns =>
      FramedStep.pure (OrderedSet.ofList (patterns.map (·.name)))
  | concat left right hleft hright =>
    rw [evaluate_concat]
    exact FramedStep.bind hleft fun a => FramedStep.bind hright fun b => FramedStep.pure (a ∪ b)
  | literal value =>
    rw [evaluate_literal]
    exact framed_literalTaint o value
  | encapsed parts =>
    rw [evaluate_encapsed]
    exact framed_interpolate o parts ∅
  | read x =>
    rw [evaluate_read]
    exact framed_read o x
  | pass function argument rest hpass ih =>
    rw [evaluate_pass hpass]
    exact ih
  | call function arguments hpass =>
    rw [evaluate_call hpass]
    exact FramedStep.bind (framed_call o function arguments) fun _ => FramedStep.pure ∅
  | idle n h =>
    rw [funext h]
    exact FramedStep.pure ∅
  | inert n reason detail h =>
    rw [funext h]
    exact FramedStep.bind (Framed.fallback reason detail) fun _ => FramedStep.pure ∅

/-! ## §4. Execution. -/

theorem framed_assign (target : Node) (taint : Taint) : Framed o fun s => s.assign target taint := by
  by_cases h : ∃ x, target = .var (some x)
  · obtain ⟨x, rfl⟩ := h
    exact Framed.changeEnv fun e =>
      (Env.names_prefix_declare e x).trans (Env.names_prefix_assign (e.declare x) x taint)
  · have heq : (fun s : Run => s.assign target taint)
        = fun s => s.fallback "assign_without_target" target.kindName := by
      funext s
      rw [Run.assign]
      exact fun x hx => h ⟨x, hx⟩
    rw [heq]
    exact Framed.fallback _ _

theorem framed_echoLookup (name : Option String) : Framed o fun s => s.echoLookup o name := by
  refine Framed.after (framed_lookupPatterns o name) (k := fun patterns s => patterns.foldl (fun s p =>
    if o.echoSink ∈ p.sinks then
      { s with verdict := s.verdict.markVulnerable p.name }.log (.taintedOutput (name.getD "") p.name)
    else s) s) fun patterns => Framed.foldl (fun p => ?_) patterns
  by_cases h : o.echoSink ∈ p.sinks
  · simp only [if_pos h]
    exact framed_report o p.name (.taintedOutput (name.getD "") p.name)
  · simp only [if_neg h]
    exact Framed.idle

theorem framed_echo (arguments : List Node) : Framed o (Run.echo o arguments) := by
  induction arguments with
  | nil => exact Framed.idle
  | cons n rest ih =>
    match n with
    | .offsetLookup name _ => exact Framed.andThen (framed_echoLookup o name) ih
    | .unknown .. | .var _ | .string _ | .bin .. | .call .. | .encapsed _ | .assign .. | .echo _
    | .cond .. | .loop .. | .block _ => exact ih

variable {o}

theorem Run.Agrees.enter {s t : Run} (h : t.Agrees s) (guard : Option String) :
    (t.enter guard).Agrees (s.enter guard) := by
  cases guard with
  | none => exact h
  | some literal => exact ⟨h.active, h.env, congrArg (literal :: ·) h.guards⟩

/-- Entering and leaving a guarded place is a matter of the guards only. -/
theorem Run.active_enter (s : Run) (guard : Option String) : (s.enter guard).active = s.active := by
  cases guard <;> rfl

theorem Run.env_enter (s : Run) (guard : Option String) : (s.enter guard).env = s.env := by
  cases guard <;> rfl

theorem Run.verdict_enter (s : Run) (guard : Option String) : (s.enter guard).verdict = s.verdict := by
  cases guard <;> rfl

theorem Run.active_leave (s : Run) (guard : Option String) : (s.leave guard).active = s.active := by
  cases guard <;> rfl

theorem Run.env_leave (s : Run) (guard : Option String) : (s.leave guard).env = s.env := by
  cases guard <;> rfl

theorem Run.verdict_leave (s : Run) (guard : Option String) : (s.leave guard).verdict = s.verdict := by
  cases guard <;> rfl

theorem leads_branch (guard : Option String) {first second : Run → Run} (hfirst : Framed o first)
    (hsecond : Framed o second) (s : Run) : s.Leads o (branch guard first second s) := by
  have hthen := hfirst.leads (s.enter guard)
  have helse := hsecond.leads ((first (s.enter guard)).withEnv s.env)
  refine ⟨?_, ?_, ?_, fun hscoped => ?_⟩
  · -- the guard that was entered is left again
    show (Run.leave _ guard).guards = s.guards
    have hguards := helse.guards.trans hthen.guards
    cases guard with
    | none => exact hguards
    | some literal => exact congrArg List.tail hguards
  · exact helse.names.trans (Env.names_prefix_join _ _)
  · show (Run.leave _ guard).active.Sublist s.active
    rw [Run.active_leave, ← s.active_enter guard]
    exact helse.active.trans hthen.active
  · show (Run.leave _ guard).active = s.active
    rw [Run.active_leave, ← s.active_enter guard]
    exact (helse.fixed hscoped).trans (hthen.fixed hscoped)

/-- **Both branches see the setting before the conditional**, so their outputs stand one after
the other. -/
theorem framed_branch (guard : Option String) {first second : Run → Run} (hfirst : Framed o first)
    (hsecond : Framed o second) : Framed o (branch guard first second) := by
  refine Framed.intro (leads_branch guard hfirst hsecond) fun s => ?_
  obtain ⟨d, hd⟩ := hfirst.output (s.enter guard)
  obtain ⟨d', hd'⟩ := hsecond.output ((first (s.enter guard)).withEnv s.env)
  refine ⟨d.append d', fun t ht => ?_⟩
  have hreset : ((first (t.enter guard)).withEnv t.env).Agrees ((first (s.enter guard)).withEnv s.env) := by
    have hfst := hfirst.agrees (ht.enter guard)
    exact ⟨hfst.active, ht.env, hfst.guards⟩
  simp only [branch]
  rw [hd' _ hreset, hd _ (ht.enter guard)]
  cases guard <;>
    simp [Run.emit, Run.adopt, Run.enter, Run.leave, Run.withEnv, Output.append, Nat.add_assoc, Bool.or_assoc,
      Output.violates_append d d']

theorem framed_settle {body : Run → Run} (hbody : Framed o body) (limit : Nat) :
    FramedStep o fun s => ((settle body limit s).2, (settle body limit s).1) := by
  induction limit with
  | zero => exact FramedStep.pure 0
  | succ limit ih =>
    refine FramedStep.of_setting fun s => ?_
    by_cases hgrows : s.env.weight < (body s).env.weight
    · refine ⟨_, FramedStep.bind hbody fun _ => FramedStep.bind ih fun k => FramedStep.pure (k + 1),
        fun t ht => ?_⟩
      have hgrows' : t.env.weight < (body t).env.weight := by
        rw [ht.env, (hbody.agrees ht).env]
        exact hgrows
      rw [settle, if_pos hgrows']
    · refine ⟨_, FramedStep.bind hbody fun _ => FramedStep.pure 1, fun t ht => ?_⟩
      have hgrows' : ¬ t.env.weight < (body t).env.weight := by
        rw [ht.env, (hbody.agrees ht).env]
        exact hgrows
      rw [settle, if_neg hgrows']

theorem framed_repeatBody {effect : Run → Run} (heffect : Framed o effect) (ns : List Node) :
    Framed o (repeatBody effect (loopLimit ns)) := by
  refine Framed.of_setting fun s => ?_
  refine ⟨_, Framed.after (framed_settle heffect (loopLimit ns s)) (k := fun k s => s.finishLoop k) fun k => ?_,
    fun t ht => ?_⟩
  · simp only [Run.finishLoop_eq_emit]
    exact Framed.emit _
  · have hlimit : loopLimit ns t = loopLimit ns s := by
      unfold loopLimit
      rw [ht.active, ht.env]
    unfold repeatBody
    rw [hlimit]

variable (o)

/-- **Execution is framed.** -/
theorem framed_execute (n : Node) : Framed o (execute o n) := by
  induction n using statement_induction o with
  | assign left right =>
    rw [execute_assign]
    exact Framed.after (framed_evaluate o right) (framed_assign o left)
  | echo arguments =>
    rw [execute_echo]
    exact framed_echo o arguments
  | cond test body alternate hbody halternate =>
    rw [execute_cond]
    exact framed_branch _ ((Framed.sequential o).body hbody false) ((Framed.sequential o).alternate halternate)
  | loop test body hbody =>
    rw [execute_loop]
    exact framed_repeatBody ((Framed.sequential o).body hbody false) body
  | block children hchildren =>
    rw [execute_block]
    exact (Framed.sequential o).all hchildren
  | inert n reason detail h =>
    rw [funext h]
    exact Framed.fallback reason detail

theorem framed_executeBody (c : Context) (started : Bool) (ns : List Node) :
    Framed o (executeBody o c started ns) :=
  (Framed.sequential o).body (fun n _ => framed_execute o n) started

theorem framed_executeAlternate (alternate : Option (List Node)) :
    Framed o (executeAlternate o alternate) :=
  (Framed.sequential o).alternate fun _ _ n _ => framed_execute o n

end TaintFlow
