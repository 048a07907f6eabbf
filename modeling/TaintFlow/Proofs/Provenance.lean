/-
  TaintFlow.Proofs.Provenance
  ───────────────────────────
  **No report without a source and a sink.**

  A pattern is reported only if the program has both ends of a flow for a pattern of that
  name: a place where foreign data can enter (`Program.HasSource`) and a place that the data
  must not reach (`Program.HasSink`).

  The marks of a run are then names with a source, and its reports are names with both: these
  are bounds (`flowBounds`), and every statement of the program is permitted by them.
-/
import TaintFlow.Analysis.Analyze
import TaintFlow.Proofs.Bounds

namespace TaintFlow

/-! ## §1. Sources and sinks of a program. -/

namespace Program

/-- Foreign data can get the mark `name` in the program: the program reads an entry point of a
pattern with that name, or a literal stands in a branch of a conditional that compares with it. -/
def HasSource (p : Program) (o : Options) (c : Catalog) (name : String) : Prop :=
  (∃ q ∈ c.patterns, q.name = name ∧ ∃ x offset,
    Node.OccursIn (.offsetLookup (some x) offset) p.children ∧ o.entryPointSign ++ x ∈ q.entryPoints) ∨
  (o.guardedLiterals = true ∧ ∃ test body alternate value,
    Node.OccursIn (.cond test body alternate) p.children ∧ guardedLiteral? test = some value ∧
      Node.OccursIn (.string value) (body ++ alternate.getD []))

/-- The program has a sink of a pattern with the name: a call with a variable among its
arguments, of a function that does not just hand on its first argument, or the printing of an
entry point. -/
def HasSink (p : Program) (o : Options) (c : Catalog) (name : String) : Prop :=
  ∃ q ∈ c.patterns, q.name = name ∧
    ((∃ function arguments, Node.OccursIn (.call (some function) arguments) p.children ∧
      function ∈ q.sinks ∧ o.passesThrough function = false ∧ ∃ x, .var (some x) ∈ arguments) ∨
    (o.echoSink ∈ q.sinks ∧ ∃ arguments entry offset, Node.OccursIn (.echo arguments) p.children ∧
      .offsetLookup entry offset ∈ arguments))

end Program

/-! ## §2. The flows of a program as bounds. -/

/-- Marks need a source, and reports need a source and a sink. -/
def flowBounds (o : Options) (c : Catalog) (p : Program) : Bounds where
  patterns := c.patterns
  guards := []
  name _ := True
  mark name := p.HasSource o c name
  report name := p.HasSource o c name ∧ p.HasSink o c name

theorem guardOf_eq_some {o : Options} {test : Node} {value : String} (h : o.guardOf test = some value) :
    o.guardedLiterals = true ∧ guardedLiteral? test = some value := by
  unfold Options.guardOf at h
  split at h
  · exact ⟨‹_›, h⟩
  · cases h

theorem permits_flowBounds (o : Options) (c : Catalog) (p : Program) {n : Node} (hn : n ∈ p.children) :
    (flowBounds o c p).Permits o n where
  name _ _ := trivial
  lookup x offset hocc q hq hentry := .inl ⟨q, hq, rfl, x, offset, ⟨n, hn, hocc⟩, hentry⟩
  literal _ value hguard := by cases hguard
  guarded test body alternate value hocc hguard hliteral q _ := by
    obtain ⟨hon, htest⟩ := guardOf_eq_some hguard
    exact .inr ⟨hon, test, body, alternate, value, ⟨n, hn, hocc⟩, htest, hliteral⟩
  call function arguments hocc hpass hx q hq hsink hmark :=
    ⟨hmark, q, hq, rfl, .inl ⟨function, arguments, ⟨n, hn, hocc⟩, hsink, hpass, hx⟩⟩
  echo arguments x offset hocc harg q hq hentry hsink := by
    refine ⟨.inl ⟨q, hq, rfl, x, offset, ⟨n, hn, ?_⟩, hentry⟩, q, hq, rfl, .inr ⟨hsink, ?_⟩⟩
    · -- the read occurs among the arguments of what is printed
      exact Node.Occurs.trans (.inside harg .root) hocc
    · exact ⟨arguments, some x, offset, ⟨n, hn, hocc⟩, harg⟩

theorem holds_flowBounds_start (o : Options) (c : Catalog) (p : Program) (counts : Tally) :
    (flowBounds o c p).Holds { Run.start c with diagnostics := counts } where
  patterns := fun _ h => h
  guards := rfl
  names _ hx := absurd hx List.not_mem_nil
  marks _ m hm := absurd hm (OrderedSet.not_mem_emptyc m)
  reports _ hname := absurd hname List.not_mem_nil

theorem holds_flowBounds_run (o : Options) (c : Catalog) (loading : Tally) (p : Program) :
    (flowBounds o c p).Holds (p.run o c loading) := by
  refine (Bounds.sequential (flowBounds o c p)).all (fun n hn => ?_) (holds_flowBounds_start o c p _)
  exact Bounds.execute (permits_flowBounds o c p hn)

/-! ## §3. Reports. -/

theorem run_of_analyze_ok {limits : Limits} {o : Options} {c : Catalog} {loading : Tally} {p : Program}
    {r : Conclusion} (h : (p.analyze limits o c loading).1 = .ok r) : r = (p.run o c loading).conclude := by
  unfold Program.analyze at h
  split at h
  · exact (Except.ok.inj h).symm
  · cases h

theorem program_of_analyze_ok {limits : Limits} {o : Options} {c : Catalog} {d : Datum} {r : Conclusion}
    (h : (analyze limits o c d).1 = .ok r) :
    ∃ p, (Syntax.load limits d).1 = .ok p ∧ (p.analyze limits o c (Syntax.load limits d).2.diagnostics).1 = .ok r := by
  unfold analyze at h
  cases hload : (Syntax.load limits d).1 with
  | error e =>
    simp only [hload] at h
    cases h
  | ok p =>
    simp only [hload] at h
    exact ⟨p, rfl, h⟩

/-- **Every reported pattern has a source and a sink in the program**, whether the tree is given
as such or as a value that is loaded first. -/
theorem reported_has_source_and_sink (limits : Limits) (o : Options) (c : Catalog) :
    (∀ (p : Program) (loading : Tally) (r : Conclusion), (p.analyze limits o c loading).1 = .ok r →
      ∀ name ∈ r.verdict.violatedPatterns, p.HasSource o c name ∧ p.HasSink o c name) ∧
    (∀ (d : Datum) (r : Conclusion), (analyze limits o c d).1 = .ok r →
      ∃ p, (Syntax.load limits d).1 = .ok p ∧
        ∀ name ∈ r.verdict.violatedPatterns, p.HasSource o c name ∧ p.HasSink o c name) := by
  have hprogram : ∀ (p : Program) (loading : Tally) (r : Conclusion), (p.analyze limits o c loading).1 = .ok r →
      ∀ name ∈ r.verdict.violatedPatterns, p.HasSource o c name ∧ p.HasSink o c name := by
    intro p loading r h name hname
    rw [run_of_analyze_ok h] at hname
    exact (holds_flowBounds_run o c loading p).reports name hname
  refine ⟨hprogram, fun d r h => ?_⟩
  obtain ⟨p, hload, hp⟩ := program_of_analyze_ok h
  exact ⟨p, hload, hprogram p _ r hp⟩

/-- A request parameter reaches a query in a later statement of a loop, by way of a branch. -/
def requestToQuery : Program :=
  ⟨[.loop (.var (some "more"))
      [.cond (.bin "==" (.var (some "mode")) (.string "raw"))
        [.assign (.var (some "x")) (.offsetLookup (some "_GET") none)]
        (some [.assign (.var (some "y")) (.string "raw")]),
       .assign (.var (some "q")) (.bin "." (.var (some "q")) (.var (some "x"))),
       .assign (.var (some "r")) (.call (some "query") [.var (some "q")])]]⟩

/-- A literal reaches a query from a branch that it guards; no entry point is read. -/
def guardedLiteralToQuery : Datum :=
  .object [("children", .list [
    .object [("kind", .text "if"),
      ("test", .object [("kind", .text "bin"), ("type", .text "=="),
        ("left", .object [("kind", .text "variable"), ("name", .text "mode")]),
        ("right", .object [("kind", .text "string"), ("value", .text "raw")])]),
      ("body", .object [("kind", .text "assign"),
        ("left", .object [("kind", .text "variable"), ("name", .text "q")]),
        ("right", .object [("kind", .text "string"), ("value", .text "raw")])])],
    .object [("kind", .text "assign"),
      ("left", .object [("kind", .text "variable"), ("name", .text "r")]),
      ("right", .object [("kind", .text "call"), ("what", .object [("name", .text "query")]),
        ("arguments", .list [.object [("kind", .text "variable"), ("name", .text "q")]])])]])]

/-- The only pattern: request parameters in a query. -/
def queryCatalog : Catalog := ⟨[.build "SQL" ["$_GET"] ["escape"] ["query"]]⟩

theorem reported_query_has_source_and_sink :
    (∃ r, (requestToQuery.analyze .standard { blockStrategy := .all } queryCatalog {}).1 = .ok r ∧
      "SQL" ∈ r.verdict.violatedPatterns ∧
      requestToQuery.HasSource { blockStrategy := .all } queryCatalog "SQL" ∧
      requestToQuery.HasSink { blockStrategy := .all } queryCatalog "SQL") ∧
    ∃ r p, (analyze .standard {} queryCatalog guardedLiteralToQuery).1 = .ok r ∧
      (Syntax.load .standard guardedLiteralToQuery).1 = .ok p ∧ "SQL" ∈ r.verdict.violatedPatterns ∧
      p.HasSource {} queryCatalog "SQL" ∧ p.HasSink {} queryCatalog "SQL" := by
  refine ⟨⟨_, rfl, ?_, ?_⟩, ?_⟩
  · decide +kernel
  · exact (reported_has_source_and_sink .standard _ _).1 requestToQuery {} _ rfl "SQL" (by decide +kernel)
  · obtain ⟨p, hload, hreported⟩ :=
      (reported_has_source_and_sink .standard {} queryCatalog).2 guardedLiteralToQuery _ rfl
    exact ⟨_, p, rfl, hload, by decide +kernel, hreported "SQL" (by decide +kernel)⟩

end TaintFlow
