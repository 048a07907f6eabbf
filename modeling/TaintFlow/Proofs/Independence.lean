/-
  TaintFlow.Proofs.Independence
  ─────────────────────────────
  **Patterns do not interfere, except through their sanitizers.**

  To find out what is reported about one pattern, the entry points and the sinks of the others
  can be left out of the catalog.  Their sanitizers cannot: a sanitizer removes all marks, and
  not only those of its own patterns.

    • `Catalog.only` — the catalog in which only one name has entry points and sinks,
    • `moves_only` — a program without loops, under both catalogs, in the view that keeps the
      marks of that name: the same violations of it, the same sanitizers, and the same
      variables with its mark.

  A loop is another way for patterns to interfere: it goes on as long as marks of any name are
  added.
-/
import TaintFlow.Analysis.Analyze
import TaintFlow.Proofs.View

namespace TaintFlow

/-- The catalog without the entry points and sinks of all other names. -/
def Catalog.only (c : Catalog) (name : String) : Catalog := ⟨c.patterns.map (Pattern.restrict (· == name))⟩

/-- The marks of one name on all variables. -/
def View.ofName (name : String) : View where
  keeps := (· == name)
  sees _ := True
  extra _ := False

theorem View.same_ofName {name : String} {t t' : Taint} (h : (View.ofName name).Same t t') : name ∈ t ↔ name ∈ t' :=
  h name (beq_self_eq_true name)

section Run

variable {o : Options} (ho : o.narrowing = .scoped) (name : String) (c : Catalog) (loading : Tally) {p : Program}
  (hfree : Node.loopFreeAll p.children = true)
include ho hfree

/-- **The two executions of a program**, both from the empty environment. -/
theorem moves_only :
    ∃ s t : Run, s.record = t.record ∧
      (View.ofName name).coupling.Moves s t (p.run o c loading) (p.run o (c.only name) loading) := by
  have hcouples : (View.ofName name).coupling.Couples (executeAll o p.children) (executeAll o p.children) :=
    View.couples_executeAll (fun _ _ => trivial) (.inr ⟨ho, hfree⟩)
  have hstart : (View.ofName name).SameEnv Env.empty Env.empty :=
    ⟨fun x _ => View.Same.refl _ _, fun _ x _ => (or_iff_left not_false).symm⟩
  refine ⟨_, _, ?_, hcouples _ _ ⟨?_, hstart, ?_⟩⟩ <;> rfl

/-- **Reports are independent of the other patterns' entry points and sinks.** -/
theorem reports_independent_of_others :
    (p.run o c loading).verdict.violatedPatterns.filter (· == name)
        = (p.run o (c.only name) loading).verdict.violatedPatterns.filter (· == name) ∧
      (p.run o c loading).verdict.sanitizersApplied = (p.run o (c.only name) loading).verdict.sanitizersApplied ∧
      ∀ x, name ∈ (p.run o c loading).env.taintOf x ↔ name ∈ (p.run o (c.only name) loading).env.taintOf x := by
  obtain ⟨s, t, hrecord, hrelates, d, d', houtput, hs, ht⟩ := moves_only ho name c loading hfree
  have henv : (View.ofName name).SameEnv (p.run o c loading).env (p.run o (c.only name) loading).env := hrelates.env
  have hviolated : d.violated.filter (· == name) = d'.violated.filter (· == name) := houtput.violated
  have hsanitizers : d.sanitizers = d'.sanitizers := houtput.sanitizers
  have hstart : s.verdict = t.verdict := (Prod.mk.inj hrecord).1
  refine ⟨?_, ?_, fun x => View.same_ofName (henv.taints x trivial)⟩
  · rw [hs.verdict, ht.verdict]
    simp only [Run.emit, List.filter_append, hstart, hviolated]
  · rw [hs.verdict, ht.verdict]
    simp only [Run.emit, hstart, hsanitizers]

end Run

/-- Input under a guarded literal, escaped for one pattern, printed, and used in a query. -/
def sharedInput : Program where
  children :=
    [.assign (.var (some "q")) (.offsetLookup (some "_GET") none),
     .cond (.bin "==" (.var (some "k")) (.string "raw"))
      [.assign (.var (some "l")) (.string "raw")]
      (some [.assign (.var (some "r")) (.call (some "clean") [.var (some "q")])]),
     .echo [.offsetLookup (some "_GET") none],
     .assign (.var (some "r")) (.call (some "query") [.var (some "l"), .var (some "q")])]

theorem sharedInput_reports_independent :
    let o : Options := { blockStrategy := .all }
    let c : Catalog := ⟨[.build "SQL" ["$_GET"] ["escape"] ["query"], .build "XSS" ["$_GET"] ["clean"] ["echo", "query"]]⟩
    o.narrowing = .scoped ∧ Node.loopFreeAll sharedInput.children = true ∧
      (sharedInput.run o c ∅).verdict.violatedPatterns.filter (· == "SQL")
        = (sharedInput.run o (c.only "SQL") ∅).verdict.violatedPatterns.filter (· == "SQL") ∧
      (sharedInput.run o c ∅).verdict.violatedPatterns = ["XSS", "SQL", "SQL", "XSS", "XSS"] := by
  intro o c
  have hfree : Node.loopFreeAll sharedInput.children = true := by decide +kernel
  obtain ⟨hviolated, -, -⟩ := reports_independent_of_others (o := o) rfl "SQL" c ∅ hfree
  exact ⟨rfl, hfree, hviolated, by decide +kernel⟩

end TaintFlow
