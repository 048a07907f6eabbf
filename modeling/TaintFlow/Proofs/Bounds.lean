/-
  TaintFlow.Proofs.Bounds
  ───────────────────────
  **What an execution can leave behind.**

  Bounds say which variables may be registered, which marks they may carry and which patterns
  may be reported, as long as only certain patterns are considered and the place has certain
  guards.  A tree is permitted by bounds if each of its parts stays within them on its own:

    • a variable may be registered where it occurs,
    • a read of an entry point brings in the names of its patterns, and a literal that equals
      the literal guarding it brings in all names,
    • a call reports patterns by their sinks, if the mark is there, and printing an entry point
      reports those with the printing sink.

  `Bounds.execute` says that an execution of a permitted tree then stays within the bounds,
  through joins, repetitions and nested guards.
-/
import TaintFlow.Proofs.Frame

namespace TaintFlow

/-! ## §1. Bounds. -/

/-- The patterns and guards of a place, and what may be registered, carried and reported there. -/
structure Bounds where
  patterns : List Pattern
  guards : List String
  name : String → Prop
  mark : String → Prop
  report : String → Prop

namespace Bounds

/-- The bounds behind a guard. -/
def enter (B : Bounds) : Option String → Bounds
  | none => B
  | some literal => { B with guards := literal :: B.guards }

/-- The run is within the bounds. -/
structure Holds (B : Bounds) (s : Run) : Prop where
  patterns : s.active ⊆ B.patterns
  guards : s.guards = B.guards
  names : ∀ x ∈ s.env.names, B.name x
  marks : ∀ x, ∀ m ∈ s.env.taintOf x, B.mark m
  reports : ∀ p ∈ s.verdict.violatedPatterns, B.report p

/-- Every part of the tree stays within the bounds. -/
structure Permits (B : Bounds) (o : Options) (n : Node) : Prop where
  name : ∀ x, Node.Occurs (.var (some x)) n → B.name x
  lookup : ∀ x offset, Node.Occurs (.offsetLookup (some x) offset) n →
    ∀ p ∈ B.patterns, o.entryPointSign ++ x ∈ p.entryPoints → B.mark p.name
  literal : o.guardedLiterals = true → ∀ value, B.guards.head? = some value →
    Node.Occurs (.string value) n → ∀ p ∈ B.patterns, B.mark p.name
  guarded : ∀ test body alternate value, Node.Occurs (.cond test body alternate) n →
    o.guardOf test = some value → Node.OccursIn (.string value) (body ++ alternate.getD []) →
      ∀ p ∈ B.patterns, B.mark p.name
  call : ∀ function arguments, Node.Occurs (.call (some function) arguments) n →
    o.passesThrough function = false → (∃ x, .var (some x) ∈ arguments) →
      ∀ p ∈ B.patterns, function ∈ p.sinks → B.mark p.name → B.report p.name
  echo : ∀ arguments x offset, Node.Occurs (.echo arguments) n → .offsetLookup (some x) offset ∈ arguments →
    ∀ p ∈ B.patterns, o.entryPointSign ++ x ∈ p.entryPoints → o.echoSink ∈ p.sinks → B.report p.name

variable {B : Bounds} {o : Options}

/-- Bounds that let every pattern mark and be reported permit a tree for its variables alone. -/
theorem Permits.of_marks {n : Node} (hname : ∀ x, Node.Occurs (.var (some x)) n → B.name x)
    (hmark : ∀ p ∈ B.patterns, B.mark p.name) (hreport : ∀ p ∈ B.patterns, B.report p.name) : B.Permits o n where
  name := hname
  lookup _ _ _ p hp _ := hmark p hp
  literal _ _ _ _ p hp := hmark p hp
  guarded _ _ _ _ _ _ _ p hp := hmark p hp
  call _ _ _ _ _ p hp _ _ := hreport p hp
  echo _ _ _ _ _ p hp _ _ := hreport p hp

/-- What is permitted of a tree is permitted of its children. -/
theorem Permits.child {c n : Node} (h : B.Permits o n) (hc : c ∈ n.children) : B.Permits o c where
  name x hx := h.name x (.inside hc hx)
  lookup x offset hx := h.lookup x offset (.inside hc hx)
  literal ho value hv hx := h.literal ho value hv (.inside hc hx)
  guarded test body alternate value hx := h.guarded test body alternate value (.inside hc hx)
  call function arguments hx := h.call function arguments (.inside hc hx)
  echo arguments x offset hx := h.echo arguments x offset (.inside hc hx)

/-- What is permitted of a conditional is permitted of its branches behind the guard. -/
theorem Permits.branch {c test : Node} {body : List Node} {alternate : Option (List Node)}
    (h : B.Permits o (.cond test body alternate)) (hc : c ∈ body ++ alternate.getD []) :
    (B.enter (o.guardOf test)).Permits o c := by
  have hchild := h.child (List.mem_cons_of_mem test hc)
  cases hguard : o.guardOf test with
  | none => exact hchild
  | some value =>
    refine { hchild with literal := fun _ v hv hocc p hp => ?_ }
    -- the innermost guard is now the one of this very conditional
    obtain rfl : value = v := Option.some.inj hv
    exact h.guarded test body alternate value .root hguard ⟨c, hc, hocc⟩ p hp

/-! ## §2. Elementary changes. -/

variable {s : Run}

theorem Holds.fallback (h : B.Holds s) (reason detail : String) : B.Holds (s.fallback reason detail) :=
  ⟨h.patterns, h.guards, h.names, h.marks, h.reports⟩

theorem Holds.log (h : B.Holds s) (e : Event) : B.Holds (s.log e) :=
  ⟨h.patterns, h.guards, h.names, h.marks, h.reports⟩

theorem Holds.mem_activeNames (h : B.Holds s) {m : String} (hm : m ∈ s.activeNames) :
    ∃ p ∈ B.patterns, p.name = m := by
  obtain ⟨p, hp, rfl⟩ := List.mem_map.1 (OrderedSet.mem_ofList.1 hm)
  exact ⟨p, h.patterns hp, rfl⟩

theorem Holds.read (h : B.Holds s) {x : String} (hx : B.name x) : B.Holds (s.read x).2 where
  patterns := h.patterns
  guards := h.guards
  names y hy := by
    rcases Env.mem_names_declare.1 hy with rfl | hy
    · exact hx
    · exact h.names y hy
  marks y m hm := by
    have hm : m ∈ (s.env.declare x).taintOf y := hm
    rw [Env.taintOf_declare] at hm
    exact h.marks y m hm
  reports := h.reports

theorem Holds.assign (h : B.Holds s) {x : String} (hx : B.name x) {taint : Taint}
    (ht : ∀ m ∈ taint, B.mark m) : B.Holds (s.assign (.var (some x)) taint) where
  patterns := h.patterns
  guards := h.guards
  names y hy := by
    rcases Env.mem_names_assign.1 hy with rfl | hy
    · exact hx
    · exact (h.read hx).names y hy
  marks y m hm := by
    have hm : m ∈ ((s.env.declare x).assign x taint).taintOf y := hm
    rw [Env.taintOf_assign] at hm
    split at hm
    · exact ht m hm
    · exact (h.read hx).marks y m hm
  reports := h.reports

theorem Holds.report (h : B.Holds s) {p : String} (hp : B.report p) (e : Event) :
    B.Holds ({ s with verdict := s.verdict.markVulnerable p }.log e) where
  patterns := h.patterns
  guards := h.guards
  names := h.names
  marks := h.marks
  reports q hq := by
    rcases List.mem_append.1 hq with hq | hq
    · exact h.reports q hq
    · rw [List.mem_singleton.1 hq]
      exact hp

theorem Holds.applySanitizer (h : B.Holds s) (function : String) {names : List String}
    (hnames : ∀ x ∈ names, B.name x) : B.Holds (s.applySanitizer function names) where
  patterns := h.patterns
  guards := h.guards
  names y hy := by
    rcases Env.mem_names_foldl_sanitize.1 hy with hy | hy
    · exact hnames y hy
    · exact h.names y hy
  marks y m hm := by
    have hm : m ∈ (names.foldl Env.sanitize s.env).taintOf y := hm
    rw [Env.taintOf_foldl_sanitize] at hm
    split at hm
    · exact absurd hm (OrderedSet.not_mem_emptyc m)
    · exact h.marks y m hm
  reports := h.reports

/-- A read of an entry point finds patterns of the bounds that have it. -/
theorem Holds.lookupPatterns (h : B.Holds s) (o : Options) (name : Option String) :
    B.Holds (s.lookupPatterns o name).2 ∧
      ∀ p ∈ (s.lookupPatterns o name).1,
        p ∈ B.patterns ∧ ∃ x, name = some x ∧ o.entryPointSign ++ x ∈ p.entryPoints := by
  cases name with
  | none => exact ⟨h.fallback _ _, fun p hp => absurd hp List.not_mem_nil⟩
  | some x =>
    have hmatched : ∀ p ∈ Catalog.withEntryPoint (o.entryPointSign ++ x) s.active,
        p ∈ s.active ∧ o.entryPointSign ++ x ∈ p.entryPoints := by
      intro p hp
      simpa [Catalog.withEntryPoint] using hp
    unfold Run.lookupPatterns Run.queryEntryPoint
    match o.narrowing with
    | .scoped => exact ⟨h, fun p hp => ⟨h.patterns (hmatched p hp).1, x, rfl, (hmatched p hp).2⟩⟩
    | .legacy =>
      refine ⟨⟨fun p hp => h.patterns (hmatched p hp).1, h.guards, h.names, h.marks, h.reports⟩, fun p hp => ?_⟩
      exact ⟨h.patterns (hmatched p hp).1, x, rfl, (hmatched p hp).2⟩

/-! ## §3. Evaluation. -/

theorem interpolate {parts : List Node} (hparts : ∀ x, .var (some x) ∈ parts → B.name x) :
    ∀ (taint : Taint) (s : Run), (∀ m ∈ taint, B.mark m) → B.Holds s →
      B.Holds (Run.interpolate taint parts s).2 ∧ ∀ m ∈ (Run.interpolate taint parts s).1, B.mark m := by
  induction parts with
  | nil => exact fun taint s ht hs => ⟨hs, ht⟩
  | cons n rest ih =>
    intro taint s ht hs
    have ih := ih fun x hx => hparts x (List.mem_cons_of_mem n hx)
    by_cases hn : ∃ x, n = .var (some x)
    · obtain ⟨x, rfl⟩ := hn
      refine ih (taint ∪ s.env.taintOf x) (s.read x).2 (fun m hm => ?_) (hs.read (hparts x List.mem_cons_self))
      rcases OrderedSet.mem_union.1 hm with hm | hm
      · exact ht m hm
      · exact hs.marks x m hm
    · rw [interpolate_cons_of_ne fun x hx => hn ⟨x, hx⟩]
      exact ih taint s ht hs

theorem namedArguments (arguments : List Node) {s : Run} (hs : B.Holds s) :
    B.Holds (Run.namedArguments arguments s).2 := by
  induction arguments generalizing s with
  | nil => exact hs
  | cons n rest ih =>
    match n with
    | .var (some x) => exact ih hs
    | .var none => exact ih (hs.fallback _ _)
    | .unknown .. | .string _ | .offsetLookup .. | .bin .. | .call .. | .encapsed _ | .assign .. | .echo _
    | .cond .. | .loop .. | .block _ => exact ih hs

theorem checkArgument {function x : String} {p : Pattern} (hx : B.name x) (hp : B.mark p.name → B.report p.name)
    {s : Run} (hs : B.Holds s) : B.Holds (Run.checkArgument function p s x) := by
  show B.Holds (if p.name ∈ s.env.taintOf x then _ else _)
  split
  · rename_i htaint
    exact (hs.read hx).report (hp (hs.marks x _ htaint)) _
  · exact hs.read hx

theorem checkSink {function : String} {p : Pattern} {names : List String} (hnames : ∀ x ∈ names, B.name x)
    (hp : names ≠ [] → B.mark p.name → B.report p.name) {s : Run} (hs : B.Holds s) :
    B.Holds (Run.checkSink function names s p) := by
  refine List.foldlRecOn names _ hs fun t ht x hx => ?_
  exact checkArgument (hnames x hx) (hp (List.ne_nil_of_mem hx)) ht

theorem callEffect {function : String} {arguments : List Node}
    (hnames : ∀ x, .var (some x) ∈ arguments → B.name x)
    (hsinks : (∃ x, .var (some x) ∈ arguments) →
      ∀ p ∈ B.patterns, function ∈ p.sinks → B.mark p.name → B.report p.name)
    {s : Run} (hs : B.Holds s) : B.Holds (s.call function arguments) := by
  by_cases hnone : Catalog.withSink function s.active = [] ∧ Catalog.withSanitizer function s.active = []
  · rw [call_of_none hnone]
    exact hs
  · rw [call_of_some hnone]
    have hargs : ∀ x ∈ (Run.namedArguments arguments s).1, B.name x := fun x hx =>
      hnames x (mem_namedArguments.1 hx)
    have hchecked : B.Holds ((Catalog.withSink function s.active).foldl
        (Run.checkSink function (Run.namedArguments arguments s).1) (Run.namedArguments arguments s).2) := by
      refine List.foldlRecOn _ _ (namedArguments arguments hs) fun t ht p hp => ?_
      have hp : p ∈ s.active ∧ function ∈ p.sinks := by simpa [Catalog.withSink] using hp
      refine checkSink hargs (fun hne => ?_) ht
      obtain ⟨x, hx⟩ := List.exists_mem_of_ne_nil _ hne
      exact hsinks ⟨x, mem_namedArguments.1 hx⟩ p (hs.patterns hp.1) hp.2
    split
    · exact hchecked
    · exact hchecked.applySanitizer function hargs

/-- **Evaluation stays within the bounds**, and so do the marks of its result. -/
theorem evaluate {n : Node} (hn : B.Permits o n) {s : Run} (hs : B.Holds s) :
    B.Holds (evaluate o n s).2 ∧ ∀ m ∈ (evaluate o n s).1, B.mark m := by
  have hclean : ∀ m ∈ (∅ : Taint), B.mark m := fun m hm => absurd hm (OrderedSet.not_mem_emptyc m)
  induction n using expression_induction o generalizing s with
  | lookup name offset =>
    rw [evaluate_lookup]
    obtain ⟨hstate, hfound⟩ := hs.lookupPatterns o name
    refine ⟨hstate, fun m hm => ?_⟩
    obtain ⟨p, hp, rfl⟩ := List.mem_map.1 (OrderedSet.mem_ofList.1 hm)
    obtain ⟨hpattern, x, rfl, hentry⟩ := hfound p hp
    exact hn.lookup x offset .root p hpattern hentry
  | concat left right hleft hright =>
    rw [evaluate_concat]
    obtain ⟨hs₁, ht₁⟩ := hleft (hn.child (by simp [Node.children])) hs
    obtain ⟨hs₂, ht₂⟩ := hright (hn.child (by simp [Node.children])) hs₁
    refine ⟨hs₂, fun m hm => ?_⟩
    rcases OrderedSet.mem_union.1 hm with hm | hm
    · exact ht₁ m hm
    · exact ht₂ m hm
  | literal value =>
    rw [evaluate_literal]
    show B.Holds (Run.literalTaint s o value).2 ∧ ∀ m ∈ (Run.literalTaint s o value).1, B.mark m
    unfold Run.literalTaint
    split
    · rename_i hguard
      refine ⟨hs.log _, fun m hm => ?_⟩
      obtain ⟨p, hp, rfl⟩ := hs.mem_activeNames hm
      refine hn.literal hguard.1 value ?_ .root p hp
      rw [← hs.guards]
      exact hguard.2
    · exact ⟨hs, hclean⟩
  | encapsed parts =>
    rw [evaluate_encapsed]
    exact interpolate (fun x hx => hn.name x (.inside hx .root)) ∅ s hclean hs
  | read x =>
    rw [evaluate_read]
    exact ⟨hs.read (hn.name x .root), hs.marks x⟩
  | pass function argument rest hpass ih =>
    rw [evaluate_pass hpass]
    exact ih (hn.child (by simp [Node.children])) hs
  | call function arguments hpass =>
    rw [evaluate_call hpass]
    refine ⟨callEffect (fun x hx => hn.name x (.inside hx .root)) ?_ hs, hclean⟩
    exact hn.call function arguments .root hpass
  | idle n h =>
    rw [h s]
    exact ⟨hs, hclean⟩
  | inert n reason detail h =>
    rw [h s]
    exact ⟨hs.fallback _ _, hclean⟩

/-! ## §4. Execution. -/

theorem echoLookup {name : Option String}
    (hreport : ∀ x, name = some x → ∀ p ∈ B.patterns, o.entryPointSign ++ x ∈ p.entryPoints →
      o.echoSink ∈ p.sinks → B.report p.name)
    {s : Run} (hs : B.Holds s) : B.Holds (s.echoLookup o name) := by
  obtain ⟨hstate, hfound⟩ := hs.lookupPatterns o name
  refine List.foldlRecOn _ _ hstate fun t ht p hp => ?_
  obtain ⟨hpattern, x, hname, hentry⟩ := hfound p hp
  split
  · rename_i hsink
    exact ht.report (hreport x hname p hpattern hentry hsink) _
  · exact ht

theorem echoAll {arguments : List Node}
    (hreport : ∀ x offset, .offsetLookup (some x) offset ∈ arguments → ∀ p ∈ B.patterns,
      o.entryPointSign ++ x ∈ p.entryPoints → o.echoSink ∈ p.sinks → B.report p.name)
    {s : Run} (hs : B.Holds s) : B.Holds (Run.echo o arguments s) := by
  induction arguments generalizing s with
  | nil => exact hs
  | cons n rest ih =>
    have ih : ∀ {s : Run}, B.Holds s → B.Holds (Run.echo o rest s) := fun hs =>
      ih (fun x offset hx => hreport x offset (List.mem_cons_of_mem n hx)) hs
    match n with
    | .offsetLookup name offset =>
      refine ih (echoLookup (fun x hx => ?_) hs)
      subst hx
      exact hreport x offset List.mem_cons_self
    | .unknown .. | .var _ | .string _ | .bin .. | .call .. | .encapsed _ | .assign .. | .echo _
    | .cond .. | .loop .. | .block _ => exact ih hs

theorem Holds.enter (hs : B.Holds s) (guard : Option String) : (B.enter guard).Holds (s.enter guard) := by
  cases guard with
  | none => exact hs
  | some literal => exact ⟨hs.patterns, congrArg (literal :: ·) hs.guards, hs.names, hs.marks, hs.reports⟩

/-- Both branches start within the bounds, and their join has nothing that neither has. -/
theorem branchEffect {guard : Option String} {first second : Run → Run}
    (hfirst : ∀ {s : Run}, (B.enter guard).Holds s → (B.enter guard).Holds (first s))
    (hsecond : ∀ {s : Run}, (B.enter guard).Holds s → (B.enter guard).Holds (second s))
    {s : Run} (hs : B.Holds s) : B.Holds (branch guard first second s) := by
  have hthen := hfirst (hs.enter guard)
  have hreset : (B.enter guard).Holds ((first (s.enter guard)).withEnv s.env) :=
    ⟨hthen.patterns, hthen.guards, by cases guard <;> exact hs.names, by cases guard <;> exact hs.marks, hthen.reports⟩
  have helse := hsecond hreset
  simp only [branch]
  refine ⟨?_, ?_, fun x hx => ?_, fun x m hm => ?_, ?_⟩
  · cases guard <;> exact helse.patterns
  · cases guard with
    | none => exact helse.guards
    | some literal => exact congrArg List.tail helse.guards
  · rcases Env.mem_names_join.1 hx with hx | hx
    · cases guard <;> exact hthen.names x hx
    · cases guard <;> exact helse.names x hx
  · rcases Env.mem_taintOf_join.1 hm with hm | hm
    · cases guard <;> exact hthen.marks x m hm
    · cases guard <;> exact helse.marks x m hm
  · cases guard <;> exact helse.reports

theorem iterateEffect {body : Run → Run} (hbody : ∀ {s : Run}, B.Holds s → B.Holds (body s)) (k : Nat)
    {s : Run} (hs : B.Holds s) : B.Holds (body^[k] s) := by
  induction k generalizing s with
  | zero => exact hs
  | succ k ih => exact ih (hbody hs)

/-- Staying within bounds passes from statements to bodies. -/
theorem sequential (B : Bounds) : Sequential fun f => ∀ {s : Run}, B.Holds s → B.Holds (f s) where
  idle hs := hs
  andThen hf hg _ hs := hg (hf hs)
  fallback reason detail _ hs := hs.fallback reason detail

/-- **Execution stays within the bounds** that permit the statement. -/
theorem execute {n : Node} (hn : B.Permits o n) {s : Run} (hs : B.Holds s) : B.Holds (execute o n s) := by
  induction n using statement_induction o generalizing s B with
  | assign left right =>
    rw [execute_assign]
    obtain ⟨hstate, hmarks⟩ := evaluate (hn.child (c := right) (by simp [Node.children])) hs
    by_cases hleft : ∃ x, left = .var (some x)
    · obtain ⟨x, rfl⟩ := hleft
      exact hstate.assign (hn.name x (.inside (by simp [Node.children]) .root)) hmarks
    · show B.Holds (Run.assign _ left _)
      rw [Run.assign]
      · exact hstate.fallback _ _
      · exact fun x hx => hleft ⟨x, hx⟩
  | echo arguments =>
    rw [execute_echo]
    exact echoAll (fun x offset => hn.echo arguments x offset .root) hs
  | cond test body alternate hbody halternate =>
    rw [execute_cond]
    refine branchEffect ?_ ?_ hs
    · refine (sequential (B.enter (o.guardOf test))).body (fun n hmem => ?_) false
      exact hbody n hmem (hn.branch (by simp [hmem]))
    · refine (sequential (B.enter (o.guardOf test))).alternate fun ns hns n hmem => ?_
      exact halternate ns hns n hmem (hn.branch (by simp [Option.mem_def.1 hns, hmem]))
  | loop test body hbody =>
    rw [execute_loop]
    have hrepeat : B.Holds (settle (executeBody o .loop false body) (loopLimit body s) s).1 := by
      rw [settle_eq_iterate]
      refine iterateEffect ((sequential B).body (fun n hmem => ?_) false) _ hs
      exact hbody n hmem (hn.child (by simp [Node.children, hmem]))
    exact ⟨hrepeat.patterns, hrepeat.guards, hrepeat.names, hrepeat.marks, hrepeat.reports⟩
  | block children hchildren =>
    rw [execute_block]
    exact (sequential B).all (fun n hmem => hchildren n hmem (hn.child hmem)) hs
  | inert n reason detail h =>
    rw [h s]
    exact hs.fallback reason detail

end Bounds

end TaintFlow
