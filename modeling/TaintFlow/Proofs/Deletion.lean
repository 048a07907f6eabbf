/-
  TaintFlow.Proofs.Deletion
  ─────────────────────────
  **Statements that are no statements have no effect.**

  A tree may have an expression, or a node that was not recognised, where a statement belongs.
  Such a stray node is passed over.  `Node.strip` deletes all of them, at every depth, and

      executing a program  =  executing the stripped program

  in everything but the counts of what was passed over and the events that report it.

    • `Node.strip` — the tree without stray nodes in any of its statement lists; a second branch
      that is there stays there, even if nothing is left in it,
    • `tidy_strip` — what is left has statements in all of its statement lists,
    • `alike_strip` — evaluation cannot tell a tree from its stripped form,
    • `ignoring` — the coupling: the same setting, and outputs that differ in some counts only,
    • `couples_stripBody` — a body and what is left of it,
    • `couples_strip` — a statement and its stripped form, by induction on the statement.
-/
import TaintFlow.Proofs.Alike
import TaintFlow.Proofs.Pruning

namespace TaintFlow

/-! ## §1. Stripped programs. -/

/-- Is this a node that can be executed?  All others are passed over where a statement belongs. -/
def Node.isStatement : Node → Bool
  | .assign .. | .echo _ | .cond .. | .loop .. | .block _ => true
  | _ => false

mutual

/-- The tree without stray nodes in its statement lists, wherever these stand. -/
def Node.strip : Node → Node
  | .unknown rawKind reason => .unknown rawKind reason
  | .var name => .var name
  | .string value => .string value
  | .offsetLookup name offset => .offsetLookup name (Node.stripOffset offset)
  | .bin operator left right => .bin operator left.strip right.strip
  | .call name arguments => .call name (Node.stripEach arguments)
  | .encapsed parts => .encapsed (Node.stripEach parts)
  | .assign left right => .assign left.strip right.strip
  | .echo arguments => .echo (Node.stripEach arguments)
  | .cond test body alternate => .cond test.strip (Node.stripAll body) (Node.stripAlternate alternate)
  | .loop test body => .loop test.strip (Node.stripAll body)
  | .block children => .block (Node.stripAll children)

/-- The offset of a read, stripped. -/
def Node.stripOffset : Option Node → Option Node
  | none => none
  | some offset => some offset.strip

/-- The second branch of a conditional, stripped; one that is there stays there. -/
def Node.stripAlternate : Option (List Node) → Option (List Node)
  | none => none
  | some body => some (Node.stripAll body)

/-- Arguments and parts are stripped, and none is deleted. -/
def Node.stripEach : List Node → List Node
  | [] => []
  | n :: rest => n.strip :: Node.stripEach rest

/-- Statements in a row, of which the stray nodes are deleted. -/
def Node.stripAll : List Node → List Node
  | [] => []
  | n :: rest => if n.isStatement then n.strip :: Node.stripAll rest else Node.stripAll rest

end

/-- The program without stray nodes. -/
def Program.strip (p : Program) : Program := ⟨Node.stripAll p.children⟩

namespace Node

theorem stripAll_cons_of_statement {n : Node} (h : n.isStatement = true) (rest : List Node) :
    stripAll (n :: rest) = n.strip :: stripAll rest := by
  rw [stripAll, if_pos h]

theorem stripAll_cons_of_stray {n : Node} (h : n.isStatement = false) (rest : List Node) :
    stripAll (n :: rest) = stripAll rest := by
  rw [stripAll, if_neg (by simp [h])]

theorem isStatement_strip (n : Node) : n.strip.isStatement = n.isStatement := by
  cases n <;> rfl

theorem sameKind_strip (n : Node) : n.SameKind n.strip := by
  cases n <;> exact ⟨rfl, rfl⟩

theorem isBodyStatement_of_stray {n : Node} (h : n.isStatement = false) : n.isBodyStatement = false := by
  cases n with
  | assign | cond | echo | loop | block => simp [isStatement] at h
  | unknown | var | string | offsetLookup | bin | call | encapsed => rfl

/-! ## §2. What is left. -/

theorem mem_stripEach {m : Node} {ns : List Node} : m ∈ stripEach ns ↔ ∃ n ∈ ns, m = n.strip := by
  induction ns with
  | nil => simp [stripEach]
  | cons n rest ih => simp [stripEach, ih]

theorem mem_stripAll {m : Node} {ns : List Node} :
    m ∈ stripAll ns ↔ ∃ n ∈ ns, n.isStatement = true ∧ m = n.strip := by
  induction ns with
  | nil => simp [stripAll]
  | cons n rest ih =>
    cases hn : n.isStatement with
    | true => simp [stripAll_cons_of_statement hn, ih, hn]
    | false => simp [stripAll_cons_of_stray hn, ih, hn]

/-- The nodes below a stripped node are stripped. -/
theorem mem_children_strip {m n : Node} (h : m ∈ n.strip.children) : ∃ c ∈ n.children, m = c.strip := by
  have hall : ∀ ns : List Node, m ∈ stripAll ns → ∃ c ∈ ns, m = c.strip := by
    intro ns hm
    obtain ⟨c, hc, -, heq⟩ := mem_stripAll.1 hm
    exact ⟨c, hc, heq⟩
  cases n with
  | unknown | var | string => simp [strip, children] at h
  | offsetLookup name offset =>
    cases offset with
    | none => simp [strip, stripOffset, children] at h
    | some offset => exact ⟨offset, by simp [children], by simpa [strip, stripOffset, children] using h⟩
  | bin operator left right | assign left right =>
    obtain rfl | rfl : m = left.strip ∨ m = right.strip := by simpa [strip, children] using h
    · exact ⟨left, by simp [children], rfl⟩
    · exact ⟨right, by simp [children], rfl⟩
  | call name ns | encapsed ns | echo ns => exact mem_stripEach.1 h
  | block ns => exact hall ns h
  | loop test body =>
    rcases List.mem_cons.1 h with rfl | h
    · exact ⟨test, by simp [children], rfl⟩
    · obtain ⟨c, hc, heq⟩ := hall body h
      exact ⟨c, by simp [children, hc], heq⟩
  | cond test body alternate =>
    rcases List.mem_cons.1 h with rfl | h
    · exact ⟨test, by simp [children], rfl⟩
    rcases List.mem_append.1 h with h | h
    · obtain ⟨c, hc, heq⟩ := hall body h
      exact ⟨c, by simp [children, hc], heq⟩
    · cases alternate with
      | none => simp [stripAlternate] at h
      | some other =>
        obtain ⟨c, hc, heq⟩ := hall other h
        exact ⟨c, by simp [children, hc], heq⟩

/-- The nodes of a tree's own statement lists. -/
def statements : Node → List Node
  | .cond _ body alternate => body ++ alternate.getD []
  | .loop _ body => body
  | .block children => children
  | _ => []

/-- There are no stray nodes in the statement lists of the tree, at any depth. -/
def Tidy (n : Node) : Prop := ∀ m : Node, m.Occurs n → ∀ k ∈ m.statements, k.isStatement = true

theorem isStatement_of_mem_stripAll {m : Node} {ns : List Node} (h : m ∈ stripAll ns) : m.isStatement = true := by
  obtain ⟨n, -, hn, rfl⟩ := mem_stripAll.1 h
  rw [isStatement_strip, hn]

theorem isStatement_of_mem_statements_strip {n k : Node} (h : k ∈ n.strip.statements) : k.isStatement = true := by
  cases n with
  | cond test body alternate =>
    rcases List.mem_append.1 h with h | h
    · exact isStatement_of_mem_stripAll h
    · cases alternate with
      | none => simp [stripAlternate] at h
      | some other => exact isStatement_of_mem_stripAll h
  | loop | block => exact isStatement_of_mem_stripAll h
  | unknown | var | string | offsetLookup | bin | call | encapsed | assign | echo => simp [strip, statements] at h

/-- **Nothing stray is left**, at any depth. -/
theorem tidy_strip (n : Node) : n.strip.Tidy := by
  induction n using Node.induction with
  | step n ih =>
    intro m hm k hk
    cases hm with
    | root => exact isStatement_of_mem_statements_strip hk
    | inside child occurs =>
      obtain ⟨c, hc, rfl⟩ := mem_children_strip child
      exact ih c hc m occurs k hk

end Node

/-! ## §3. Evaluation. -/

theorem forall₂_stripEach {R : Node → Node → Prop} {ns : List Node} (h : ∀ n ∈ ns, R n n.strip) :
    List.Forall₂ R ns (Node.stripEach ns) := by
  induction ns with
  | nil => exact .nil
  | cons n rest ih => exact .cons (h n List.mem_cons_self) (ih fun m hm => h m (List.mem_cons_of_mem n hm))

/-- Evaluation cannot tell a tree from its stripped form. -/
theorem alike_strip (n : Node) : n.Alike n.strip := by
  induction n using Node.induction with
  | step n ih =>
    cases n with
    | bin operator left right =>
      exact .bin operator (ih left (by simp [Node.children])) (ih right (by simp [Node.children]))
    | call name arguments => exact .call name (forall₂_stripEach ih)
    | encapsed parts => exact .encapsed (forall₂_stripEach ih)
    | unknown => exact .unknown
    | var name => exact .var name
    | string value => exact .string value
    | offsetLookup name offset => exact .offsetLookup name
    | assign => exact .assign
    | echo => exact .echo
    | cond => exact .cond
    | loop => exact .loop
    | block => exact .block

/-! ## §4. The coupling. -/

/-- The outputs differ at most in the counts of some reasons and in the events. -/
structure Output.SameBut (c : Output) (reasons : List String) (d : Output) : Prop where
  violated : c.violated = d.violated
  sanitizers : c.sanitizers = d.sanitizers
  iterations : c.iterations = d.iterations
  others : c.reasons.filter (· ∉ reasons) = d.reasons.filter (· ∉ reasons)

namespace Output.SameBut

variable {reasons : List String} {c c' d d' : Output}

theorem refl (d : Output) : d.SameBut reasons d := ⟨rfl, rfl, rfl, rfl⟩

theorem append (hc : c.SameBut reasons c') (hd : d.SameBut reasons d') :
    (c.append d).SameBut reasons (c'.append d') := by
  refine ⟨?_, ?_, ?_, ?_⟩
  · exact congrArg₂ (· ++ ·) hc.violated hd.violated
  · exact congrArg₂ (· ++ ·) hc.sanitizers hd.sanitizers
  · exact congrArg₂ (· + ·) hc.iterations hd.iterations
  · simp only [Output.append, List.filter_append, hc.others, hd.others]

end Output.SameBut

theorem Env.join_congr_of_eq {a a' b b' : Env String} (ha : a = a') (hb : b = b') : a.join b = a'.join b' := by
  rw [ha, hb]

/-- **Both sides have the same setting, and outputs that are the same but for some counts.** -/
def ignoring (reasons : List String) : Coupling where
  active := Eq
  env := Eq
  output c d := c.SameBut reasons d
  env_join := Env.join_congr_of_eq
  output_refl := Output.SameBut.refl
  output_append := Output.SameBut.append

/-- The reasons under which stray nodes are counted: where they are executed, and where they are skipped. -/
def strayReasons : List String := ["unknown_statement", "ignored_statement"] ++ skipReasons

/-- Giving up for such a reason leaves no trace but its count. -/
theorem couples_stray {reason : String} (h : reason ∈ strayReasons) (detail : String) :
    (ignoring strayReasons).Couples (fun s => s.fallback reason detail) id := by
  intro s t hst
  show (ignoring strayReasons).Moves s t (s.fallback reason detail) t
  rw [Run.fallback_eq_emit]
  refine (Coupling.Moves.refl hst).emit_left ⟨rfl, rfl, rfl, ?_⟩
  simp [h]

/-! ## §5. Bodies. -/

section Bodies

variable {o : Options}

/-- A stray node that is executed is counted, and that is all. -/
theorem couples_execute_stray {n : Node} (h : n.isStatement = false) :
    (ignoring strayReasons).Couples (execute o n) id := by
  have hunknown : "unknown_statement" ∈ strayReasons := by simp [strayReasons]
  have hignored : "ignored_statement" ∈ strayReasons := by simp [strayReasons]
  cases n with
  | assign | echo | cond | loop | block => simp [Node.isStatement] at h
  | unknown rawKind reason => exact couples_stray hunknown _
  | var | string | offsetLookup | bin | call | encapsed => exact couples_stray hignored _

/-- Only the strategy `first` asks whether a statement of the body has been executed. -/
theorem executes_eq_of_started {started started' : Bool} (h : o.blockStrategy = .first → started = started')
    (c : Context) (n : Node) : o.executes c started n = o.executes c started' n := by
  unfold Options.executes
  cases hstrategy : o.blockStrategy with
  | all => cases c <;> rfl
  | first => rw [h hstrategy]

/-- Under the strategy `first` no stray node is executed. -/
theorem executes_stray {n : Node} (h : n.isStatement = false) (hfirst : o.blockStrategy = .first) (c : Context)
    (started : Bool) : o.executes c started n = false := by
  unfold Options.executes
  simp [hfirst, Node.isBodyStatement_of_stray h]

/-- **A body and what is left of it.**  Stray nodes in a branch may be executed, so the two bodies may disagree
whether a statement has been executed, but not where that matters. -/
theorem couples_stripBody {c : Context} (hc : c.skipReason ∈ skipReasons) {ns : List Node}
    (h : ∀ n ∈ ns, (ignoring strayReasons).Couples (execute o n) (execute o n.strip)) :
    ∀ started started' : Bool, (o.blockStrategy = .first → started = started') →
      (ignoring strayReasons).Couples (executeBody o c started ns) (executeBody o c started' (Node.stripAll ns)) := by
  induction ns with
  | nil => exact fun _ _ _ => Coupling.Couples.idle
  | cons n rest ih =>
    intro started started' hstarted
    have hrest := ih fun m hm => h m (List.mem_cons_of_mem n hm)
    cases hn : n.isStatement with
    | true =>
      -- both sides execute the statement or both skip it
      have hsame : o.executes c started' n.strip = o.executes c started n := by
        rw [(Node.sameKind_strip n).executes, executes_eq_of_started hstarted]
      rw [Node.stripAll_cons_of_statement hn]
      cases hexecutes : o.executes c started n with
      | true =>
        rw [executeBody_cons_of_executes hexecutes, executeBody_cons_of_executes (hsame.trans hexecutes)]
        exact (h n List.mem_cons_self).andThen (hrest true true fun _ => rfl)
      | false =>
        rw [executeBody_cons_of_skips hexecutes, executeBody_cons_of_skips (hsame.trans hexecutes),
          (Node.sameKind_strip n).kindName]
        exact (Coupling.Couples.fallback _ _).andThen (hrest started started' hstarted)
    | false =>
      -- only the left side has the stray node, which is executed in a branch and skipped elsewhere
      rw [Node.stripAll_cons_of_stray hn]
      cases hexecutes : o.executes c started n with
      | true =>
        rw [executeBody_cons_of_executes hexecutes]
        refine (couples_execute_stray hn).andThen (hrest true started' fun hfirst => ?_)
        rw [executes_stray hn hfirst] at hexecutes
        cases hexecutes
      | false =>
        have hskip : c.skipReason ∈ strayReasons := List.mem_append_right _ hc
        rw [executeBody_cons_of_skips hexecutes]
        exact (couples_stray hskip n.kindName).andThen (hrest started started' hstarted)

theorem couples_stripAlternate {alternate : Option (List Node)}
    (h : ∀ ns ∈ alternate, ∀ n ∈ ns, (ignoring strayReasons).Couples (execute o n) (execute o n.strip)) :
    (ignoring strayReasons).Couples (executeAlternate o alternate)
      (executeAlternate o (Node.stripAlternate alternate)) := by
  cases alternate with
  | none => exact Coupling.Couples.idle
  | some ns => exact couples_stripBody (by simp [skipReasons]) (h ns rfl) false false fun _ => rfl

theorem couples_stripAll {ns : List Node}
    (h : ∀ n ∈ ns, (ignoring strayReasons).Couples (execute o n) (execute o n.strip)) :
    (ignoring strayReasons).Couples (executeAll o ns) (executeAll o (Node.stripAll ns)) := by
  induction ns with
  | nil => exact Coupling.Couples.idle
  | cons n rest ih =>
    have hrest := ih fun m hm => h m (List.mem_cons_of_mem n hm)
    rw [executeAll_cons]
    cases hn : n.isStatement with
    | true =>
      rw [Node.stripAll_cons_of_statement hn, executeAll_cons]
      exact (h n List.mem_cons_self).andThen hrest
    | false =>
      rw [Node.stripAll_cons_of_stray hn]
      exact (couples_execute_stray hn).andThen hrest

end Bodies

/-! ## §6. Statements. -/

section Statements

variable (o : Options)

/-- Statements without a body do the same. -/
theorem execute_strip_of_hasBody {n : Node} (h : n.hasBody = false) : execute o n.strip = execute o n := by
  cases n with
  | assign left right => exact execute_assign_alike (alike_strip left) (alike_strip right) o
  | echo arguments => exact execute_echo_alike (forall₂_stripEach fun n _ => alike_strip n) o
  | cond | loop | block => simp [Node.hasBody] at h
  | unknown | var | string | offsetLookup | bin | call | encapsed => rfl

/-- **A statement and its stripped form.** -/
theorem couples_strip (n : Node) : (ignoring strayReasons).Couples (execute o n) (execute o n.strip) := by
  induction n using Node.induction with
  | step n ih =>
    by_cases hbody : n.hasBody = false
    · rw [execute_strip_of_hasBody o hbody]
      exact (framed_execute o n).couples_of_eq rfl rfl
    · cases n with
      | cond test body alternate =>
        have hthen : (ignoring strayReasons).Couples (executeBody o .branch false body)
            (executeBody o .branch false (Node.stripAll body)) := by
          refine couples_stripBody (by simp [skipReasons]) (fun n hn => ih n ?_) false false fun _ => rfl
          simp [Node.children, hn]
        have helse : (ignoring strayReasons).Couples (executeAlternate o alternate)
            (executeAlternate o (Node.stripAlternate alternate)) := by
          refine couples_stripAlternate fun ns hns n hn => ih n ?_
          simp [Node.children, Option.mem_def.1 hns, hn]
        rw [Node.strip, execute_cond, execute_cond, (alike_strip test).guardOf]
        exact hthen.branch (o.guardOf test) helse
      | loop test body =>
        have hiteration : (ignoring strayReasons).Couples (executeBody o .loop false body)
            (executeBody o .loop false (Node.stripAll body)) := by
          refine couples_stripBody (by simp [skipReasons]) (fun n hn => ih n ?_) false false fun _ => rfl
          simp [Node.children, hn]
        rw [Node.strip]
        exact hiteration.loop_of_eq rfl test test.strip
      | block children =>
        rw [Node.strip, execute_block, execute_block]
        exact couples_stripAll ih
      | unknown | var | string | offsetLookup | bin | call | encapsed | assign | echo =>
        exact absurd rfl hbody

end Statements

/-! ## §7. Depth. -/

section Depth

variable (o : Options)

theorem condDepth_stray {n : Node} (h : n.isStatement = false) : condDepth o n = 0 := by
  cases n with
  | assign | echo | cond | loop | block => simp [Node.isStatement] at h
  | unknown | var | string | offsetLookup | bin | call | encapsed => rfl

theorem condDepthOf_stripAll {ns : List Node} (h : ∀ n ∈ ns, condDepth o n.strip = condDepth o n) (c : Context) :
    ∀ started started' : Bool, (o.blockStrategy = .first → started = started') →
      condDepthOf o c started' (Node.stripAll ns) = condDepthOf o c started ns := by
  induction ns with
  | nil => exact fun _ _ _ => rfl
  | cons n rest ih =>
    intro started started' hstarted
    have hrest := ih fun m hm => h m (List.mem_cons_of_mem n hm)
    cases hn : n.isStatement with
    | true =>
      rw [Node.stripAll_cons_of_statement hn, condDepthOf, condDepthOf, (Node.sameKind_strip n).executes,
        executes_eq_of_started hstarted, h n List.mem_cons_self, hrest true true fun _ => rfl,
        hrest started started' hstarted]
    | false =>
      rw [Node.stripAll_cons_of_stray hn, condDepthOf, condDepth_stray o hn, Nat.zero_max]
      cases hexecutes : o.executes c started n with
      | true =>
        refine (hrest true started' fun hfirst => ?_).trans (if_pos rfl).symm
        rw [executes_stray hn hfirst] at hexecutes
        cases hexecutes
      | false => exact (hrest started started' hstarted).trans (if_neg (by simp)).symm

theorem condDepthAll_stripAll {ns : List Node} (h : ∀ n ∈ ns, condDepth o n.strip = condDepth o n) :
    condDepthAll o (Node.stripAll ns) = condDepthAll o ns := by
  induction ns with
  | nil => rfl
  | cons n rest ih =>
    have hrest := ih fun m hm => h m (List.mem_cons_of_mem n hm)
    cases hn : n.isStatement with
    | true =>
      rw [Node.stripAll_cons_of_statement hn, condDepthAll, condDepthAll, h n List.mem_cons_self, hrest]
    | false => rw [Node.stripAll_cons_of_stray hn, condDepthAll, condDepth_stray o hn, Nat.zero_max, hrest]

/-- **Stripping keeps the depth of what is executed.** -/
theorem condDepth_strip (n : Node) : condDepth o n.strip = condDepth o n := by
  induction n using Node.induction with
  | step n ih =>
    cases n with
    | cond test body alternate =>
      have hbody : condDepthOf o .branch false (Node.stripAll body) = condDepthOf o .branch false body :=
        condDepthOf_stripAll o (fun n hn => ih n (by simp [Node.children, hn])) .branch false false fun _ => rfl
      have halternate : condDepthAlternate o (Node.stripAlternate alternate) = condDepthAlternate o alternate := by
        cases alternate with
        | none => rfl
        | some other =>
          exact condDepthOf_stripAll o (fun n hn => ih n (by simp [Node.children, hn])) .branch false false fun _ => rfl
      rw [Node.strip, condDepth, condDepth, hbody, halternate]
    | loop test body =>
      rw [Node.strip, condDepth, condDepth]
      exact condDepthOf_stripAll o (fun n hn => ih n (by simp [Node.children, hn])) .loop false false fun _ => rfl
    | block children =>
      rw [Node.strip, condDepth, condDepth]
      exact condDepthAll_stripAll o ih
    | unknown | var | string | offsetLookup | bin | call | encapsed | assign | echo => rfl

end Depth

/-! ## §8. Programs. -/

/-- The runs have the same setting, verdict and counts, up to the counts of stray nodes. -/
structure Run.SameUpToStrays (s t : Run) : Prop where
  setting : s.Agrees t
  verdict : s.verdict = t.verdict
  diagnostics : s.diagnostics.without strayReasons = t.diagnostics.without strayReasons

theorem sameUpToStrays_executeAll (o : Options) (ns : List Node) (s : Run) :
    (executeAll o ns s).SameUpToStrays (executeAll o (Node.stripAll ns) s) := by
  have hself : (ignoring strayReasons).Relates s s := ⟨rfl, rfl, rfl⟩
  obtain ⟨hrelates, d, d', hd, ha, hb⟩ := couples_stripAll (fun n _ => couples_strip o n) s s hself
  refine ⟨⟨hrelates.active, hrelates.env, hrelates.guards.symm⟩, ?_, ?_⟩
  · rw [ha.verdict, hb.verdict]
    simp only [Run.emit, hd.violated, hd.sanitizers, hd.iterations]
  · rw [ha.diagnostics, hb.diagnostics, Tally.without_foldl_record, Tally.without_foldl_record, hd.others]

/-- What a conclusion says apart from the counts of stray nodes. -/
def Conclusion.withoutStrays (r : Conclusion) : Conclusion :=
  { r with diagnostics := r.diagnostics.without strayReasons }

/-- **Stray nodes have no effect, at any depth.**  In a stripped program all statement lists, wherever they stand,
consist of statements.  Under all options and from every state it is executed with the same environment, patterns
under consideration, guards and verdict, and with the same counts but for those of stray nodes and of statements
that are skipped.  An analysis also refuses both programs for their depth or none. -/
theorem strays_have_no_effect (o : Options) (ns : List Node) :
    (∀ n ∈ Node.stripAll ns, n.isStatement = true ∧ n.Tidy) ∧
    (∀ s : Run,
      let full := executeAll o ns s
      let stripped := executeAll o (Node.stripAll ns) s
      full.env = stripped.env ∧ full.verdict.violatedPatterns = stripped.verdict.violatedPatterns ∧
        full.verdict.sanitizersApplied = stripped.verdict.sanitizersApplied ∧
        full.verdict.loopIterations = stripped.verdict.loopIterations ∧
        full.verdict.vulnerable = stripped.verdict.vulnerable ∧
        full.active = stripped.active ∧ full.guards = stripped.guards ∧
        full.diagnostics.without strayReasons = stripped.diagnostics.without strayReasons) ∧
    ∀ (limits : Limits) (c : Catalog) (loading : Tally),
      ((Program.mk ns).analyze limits o c loading).1.map Conclusion.withoutStrays
        = ((Program.mk ns).strip.analyze limits o c loading).1.map Conclusion.withoutStrays := by
  refine ⟨fun n hn => ⟨Node.isStatement_of_mem_stripAll hn, ?_⟩, fun s => ?_, fun limits c loading => ?_⟩
  · obtain ⟨m, -, -, rfl⟩ := Node.mem_stripAll.1 hn
    exact m.tidy_strip
  · obtain ⟨hsetting, hverdict, hdiagnostics⟩ := sameUpToStrays_executeAll o ns s
    refine ⟨hsetting.env, ?_, ?_, ?_, ?_, hsetting.active, hsetting.guards, hdiagnostics⟩
    all_goals rw [hverdict]
  · have hdepth : condDepthAll o (Program.mk ns).strip.children = condDepthAll o ns :=
      condDepthAll_stripAll o fun n _ => condDepth_strip o n
    have hrun : ((Program.mk ns).run o c loading).SameUpToStrays ((Program.mk ns).strip.run o c loading) :=
      sameUpToStrays_executeAll o ns _
    have hconclude : ((Program.mk ns).run o c loading).conclude.withoutStrays
        = ((Program.mk ns).strip.run o c loading).conclude.withoutStrays := by
      unfold Run.conclude Conclusion.withoutStrays
      rw [hrun.verdict, hrun.diagnostics]
    unfold Program.analyze
    rw [hdepth]
    split
    · exact congrArg Except.ok hconclude
    · rfl

/-- Stray nodes before, between and inside of statements.  The second branch has nothing else. -/
def strewnLoop : List Node :=
  [.var (some "q"),
    .loop (.block [.string "test"])
      [.unknown (some "trait") .unrecognizedKind,
        .cond (.bin "==" (.var (some "k")) (.string "raw"))
          [.call (some "query") [.var (some "q")], .assign (.var (some "q")) (.offsetLookup (some "_GET") none)]
          (some [.encapsed [], .var none]),
        .string "between",
        .assign (.var (some "r")) (.call (some "query") [.var (some "q")])],
    .block [.bin "." (.var (some "q")) (.var (some "r")), .echo [.offsetLookup (some "_GET") none]]]

theorem strewnLoop_strays_have_no_effect :
    let o : Options := { blockStrategy := .all }
    let s : Run := { active := [.build "SQL" ["$_GET"] [] ["query", "echo"]] }
    let last : Node := .block [.echo [.offsetLookup (some "_GET") none]]
    last ∈ Node.stripAll strewnLoop ∧ last.Tidy ∧
      (executeAll o strewnLoop s).env = (executeAll o (Node.stripAll strewnLoop) s).env ∧
      (executeAll o strewnLoop s).verdict.violatedPatterns
        = (executeAll o (Node.stripAll strewnLoop) s).verdict.violatedPatterns ∧
      (executeAll o strewnLoop s).verdict.violatedPatterns ≠ [] ∧
      (executeAll o strewnLoop s).diagnostics ≠ (executeAll o (Node.stripAll strewnLoop) s).diagnostics := by
  intro o s last
  obtain ⟨htidy, hstates, -⟩ := strays_have_no_effect o strewnLoop
  have hlast : last ∈ Node.stripAll strewnLoop := by
    simp [last, strewnLoop, Node.stripAll, Node.strip, Node.stripEach, Node.stripOffset, Node.isStatement]
  exact ⟨hlast, (htidy last hlast).2, (hstates s).1, (hstates s).2.1, by decide +kernel, by decide +kernel⟩

end TaintFlow
