/-
  TaintFlow.Proofs.Commutation
  ────────────────────────────
  **Statements without a common variable commute.**

  A statement reads and writes only the variables that occur in it (`confined_execute`), and what
  it does depends on nothing else (`View.couples_execute`, for the view that sees exactly these
  variables).  So another statement with other variables may as well come first:

    • `get?_execute_execute` — after both, each variable has what its own statement gave it,
    • `adds_execute_execute` — the second statement adds the output that it adds on its own,
    • `Run.SameUpToOrder` — so both orders end in the same state, up to the order in which
      violations and sanitizers are listed.

  Reading an entry point must leave the patterns under consideration alone: if it narrows them,
  then it matters which statement reads first.
-/
import TaintFlow.Proofs.View

namespace TaintFlow

/-! ## §1. Independent statements. -/

/-- No variable occurs in both. -/
def Node.Independent (m n : Node) : Prop :=
  ∀ x, Node.Occurs (.var (some x)) m → ¬ Node.Occurs (.var (some x)) n

theorem Node.Independent.symm {m n : Node} (h : m.Independent n) : n.Independent m :=
  fun x hn hm => h x hm hn

/-- It is enough to compare the listed variables. -/
theorem Node.Independent.of_variableNames {m n : Node} (h : ∀ x ∈ m.variableNames, x ∉ n.variableNames) :
    m.Independent n := by
  intro x hm hn
  exact h x (Node.mem_variableNames_of_occurs hm) (Node.mem_variableNames_of_occurs hn)

/-- A statement is confined to its own variables. -/
theorem confined_own (o : Options) (n : Node) :
    Confined (fun x => Node.Occurs (.var (some x)) n) (execute o n) :=
  confined_execute o fun _ hx => hx

/-- All marks on the variables of a statement. -/
def View.ofNode (m : Node) : View where
  keeps _ := true
  sees x := Node.Occurs (.var (some x)) m
  extra _ := False

theorem View.complete_ofNode (m : Node) : (View.ofNode m).Complete := fun _ => rfl

/-! ## §2. One statement after the other. -/

section Execution

variable {o : Options} {m n : Node} (ho : o.narrowing = .scoped) (hindependent : m.Independent n) (s : Run)
include ho hindependent

/-- The first statement does not show in the view of the second. -/
theorem relates_execute : (View.ofNode m).coupling.Relates s (execute o n s) := by
  have hleads := (framed_execute o n).leads s
  have hsame : ∀ x, (View.ofNode m).sees x → (execute o n s).env.bindings.get? x = s.env.bindings.get? x := by
    intro x hx
    exact confined_own o n s x (hindependent x hx)
  refine ⟨?_, ⟨fun x hx => ?_, fun _ x hx => ?_⟩, hleads.guards⟩
  · show (execute o n s).active = s.active.map _
    rw [map_restrict_of_keeps_all (View.complete_ofNode m), hleads.fixed ho]
  · rw [Env.taintOf_of_get?_eq (hsame x hx)]
    exact View.Same.refl _ _
  · rw [Env.mem_names_of_get?_eq (hsame x hx)]
    exact (or_iff_left not_false).symm

/-- So the second statement does what it does on its own. -/
theorem moves_execute :
    (View.ofNode m).coupling.Moves s (execute o n s) (execute o m s) (execute o m (execute o n s)) := by
  have hcouples : (View.ofNode m).coupling.Couples (execute o m) (execute o m) :=
    View.couples_execute (fun _ hx => hx) (.inl (View.complete_ofNode m))
  exact hcouples s (execute o n s) (relates_execute ho hindependent s)

open Classical in
/-- **Each variable has what its own statement gave it.** -/
theorem get?_execute_execute (x : String) :
    (execute o m (execute o n s)).env.bindings.get? x
      = if Node.Occurs (.var (some x)) m then (execute o m s).env.bindings.get? x
        else (execute o n s).env.bindings.get? x := by
  split
  case isTrue hx =>
    have henv : (View.ofNode m).SameEnv (execute o m s).env (execute o m (execute o n s)).env :=
      (moves_execute ho hindependent s).relates.env
    refine Env.get?_eq_of_views ?_ ?_
    · rw [henv.names (View.complete_ofNode m) x hx]
      exact or_iff_left not_false
    · exact ((henv.taints x hx).eq_of_complete (View.complete_ofNode m)).symm
  case isFalse hx =>
    exact confined_own o m (execute o n s) x hx

/-- **The second statement adds the output that it adds on its own.** -/
theorem adds_execute_execute :
    ∃ d : Output, s.Adds d (execute o m s) ∧ (execute o n s).Adds d (execute o m (execute o n s)) := by
  obtain ⟨d, d', hsame, hd, hd'⟩ := (moves_execute ho hindependent s).output
  rw [← View.SameOutput.equal hsame (View.complete_ofNode m)] at hd'
  exact ⟨d, hd, hd'⟩

/-- Both orders give every variable the same entry. -/
theorem get?_execute_comm (x : String) :
    (execute o n (execute o m s)).env.bindings.get? x = (execute o m (execute o n s)).env.bindings.get? x := by
  rw [get?_execute_execute ho hindependent, get?_execute_execute ho hindependent.symm]
  by_cases hm : Node.Occurs (.var (some x)) m
  · rw [if_pos hm, if_neg (hindependent x hm)]
  · rw [if_neg hm]
    by_cases hn : Node.Occurs (.var (some x)) n
    · rw [if_pos hn]
    · -- the variable is in neither statement, and keeps the entry that it had
      rw [if_neg hn]
      rw [confined_own o m s x hm, confined_own o n s x hn]

end Execution

/-! ## §3. Both orders. -/

/-- The outputs have the same violations, sanitizers and reasons, each as often, and the same iterations. -/
structure Output.SameUpToOrder (d e : Output) : Prop where
  violated : d.violated.Perm e.violated
  sanitizers : d.sanitizers.Perm e.sanitizers
  iterations : d.iterations = e.iterations
  reasons : d.reasons.Perm e.reasons

namespace Output.SameUpToOrder

theorem refl (d : Output) : d.SameUpToOrder d := ⟨.refl _, .refl _, rfl, .refl _⟩

theorem append {c c' d d' : Output} (hc : c.SameUpToOrder c') (hd : d.SameUpToOrder d') :
    (c.append d).SameUpToOrder (c'.append d') where
  violated := hc.violated.append hd.violated
  sanitizers := hc.sanitizers.append hd.sanitizers
  iterations := congrArg₂ (· + ·) hc.iterations hd.iterations
  reasons := hc.reasons.append hd.reasons

theorem trans {c d e : Output} (hcd : c.SameUpToOrder d) (hde : d.SameUpToOrder e) : c.SameUpToOrder e where
  violated := hcd.violated.trans hde.violated
  sanitizers := hcd.sanitizers.trans hde.sanitizers
  iterations := hcd.iterations.trans hde.iterations
  reasons := hcd.reasons.trans hde.reasons

/-- Two outputs may be added in either order. -/
theorem append_comm (d e : Output) : (d.append e).SameUpToOrder (e.append d) where
  violated := List.perm_append_comm
  sanitizers := List.perm_append_comm
  iterations := Nat.add_comm _ _
  reasons := List.perm_append_comm

end Output.SameUpToOrder

/-- The runs agree in everything but the order of entries, violations, sanitizers and events. -/
structure Run.SameUpToOrder (s t : Run) : Prop where
  env : ∀ x, s.env.bindings.get? x = t.env.bindings.get? x
  violated : s.verdict.violatedPatterns.Perm t.verdict.violatedPatterns
  sanitizers : s.verdict.sanitizersApplied.Perm t.verdict.sanitizersApplied
  counts : ∀ reason, s.diagnostics.count reason = t.diagnostics.count reason
  iterations : s.verdict.loopIterations = t.verdict.loopIterations
  vulnerable : s.verdict.vulnerable = t.verdict.vulnerable
  guards : s.guards = t.guards
  active : s.active = t.active

/-- What is added to one run may differ in its order. -/
theorem Run.SameUpToOrder.of_outputs {s a b : Run} {d e : Output} (ha : s.Adds d a) (hb : s.Adds e b)
    (hsame : d.SameUpToOrder e) (henv : ∀ x, a.env.bindings.get? x = b.env.bindings.get? x)
    (hguards : a.guards = b.guards) (hactive : a.active = b.active) : a.SameUpToOrder b := by
  refine ⟨henv, ?_, ?_, fun reason => ?_, ?_, ?_, hguards, hactive⟩
  · rw [ha.verdict, hb.verdict]
    exact hsame.violated.append_left _
  · rw [ha.verdict, hb.verdict]
    exact hsame.sanitizers.append_left _
  · rw [ha.diagnostics, hb.diagnostics, Tally.count_foldl_record, Tally.count_foldl_record,
      hsame.reasons.count_eq reason]
  · rw [ha.verdict, hb.verdict]
    exact congrArg (s.verdict.loopIterations + ·) hsame.iterations
  · have hempty : d.violated.isEmpty = e.violated.isEmpty := hsame.violated.isEmpty_eq
    rw [ha.verdict, hb.verdict]
    simp only [Run.emit, hempty]

/-- Two outputs may be added in either order. -/
theorem Run.SameUpToOrder.of_adds {s a b : Run} {d e : Output} (ha : s.Adds (d.append e) a)
    (hb : s.Adds (e.append d) b) (henv : ∀ x, a.env.bindings.get? x = b.env.bindings.get? x)
    (hguards : a.guards = b.guards) (hactive : a.active = b.active) : a.SameUpToOrder b :=
  of_outputs ha hb (Output.SameUpToOrder.append_comm d e) henv hguards hactive

/-- **Independent statements commute**, whatever their kinds and however deep they are nested. -/
theorem independent_statements_commute {o : Options} (ho : o.narrowing = .scoped) {m n : Node}
    (hindependent : m.Independent n) (s : Run) :
    (execute o n (execute o m s)).SameUpToOrder (execute o m (execute o n s)) := by
  obtain ⟨d, hm, hnm⟩ := adds_execute_execute ho hindependent s
  obtain ⟨e, hn, hmn⟩ := adds_execute_execute ho hindependent.symm s
  have hleads : s.Leads o (execute o n (execute o m s)) :=
    ((framed_execute o m).leads s).trans ((framed_execute o n).leads _)
  have hleads' : s.Leads o (execute o m (execute o n s)) :=
    ((framed_execute o n).leads s).trans ((framed_execute o m).leads _)
  refine Run.SameUpToOrder.of_adds (hm.trans hmn) (hn.trans hnm) (get?_execute_comm ho hindependent s) ?_ ?_
  · rw [hleads.guards, hleads'.guards]
  · rw [hleads.fixed ho, hleads'.fixed ho]

/-- A loop that gathers input in two variables, one of them under a condition. -/
def gatheringLoop : Node :=
  .loop (.var (some "more"))
    [.cond (.var (some "go")) [.assign (.var (some "c")) (.bin "." (.var (some "c")) (.var (some "a")))] none,
     .assign (.var (some "a")) (.offsetLookup (some "_GET") none)]

/-- A query with input that is escaped in one branch only. -/
def escapedQuery : Node :=
  .block
    [.assign (.var (some "q")) (.offsetLookup (some "_GET") none),
     .cond (.bin "==" (.var (some "k")) (.string "1"))
      [.assign (.var (some "r")) (.call (some "escape") [.var (some "q")])]
      (some [.assign (.var (some "r")) (.call (some "query") [.var (some "q"), .var none])])]

theorem gatheringLoop_escapedQuery_commute :
    let o : Options := { blockStrategy := .all, narrowing := .scoped }
    let s := Run.start ⟨[.build "SQL" ["$_GET"] ["escape"] ["query"]]⟩
    o.narrowing = .scoped ∧ gatheringLoop.Independent escapedQuery ∧
      (execute o escapedQuery (execute o gatheringLoop s)).SameUpToOrder
        (execute o gatheringLoop (execute o escapedQuery s)) := by
  intro o s
  have hindependent : gatheringLoop.Independent escapedQuery :=
    Node.Independent.of_variableNames (by decide +kernel)
  exact ⟨rfl, hindependent, independent_statements_commute rfl hindependent s⟩

end TaintFlow
