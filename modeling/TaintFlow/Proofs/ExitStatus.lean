/-
  TaintFlow.Proofs.ExitStatus
  ───────────────────────────
  **The exit code of a run agrees with what the run says.**

  The exit code is computed from the figures of a scan, and the messages from its records.  They
  agree since a slice is called vulnerable exactly if it has a finding.

    • `Hindered` — what keeps a run from scanning,
    • `Exits` — the ways in which a run that starts no service can exit, with all that it says,
    • `exits_runWith` — there are no other ways,
    • `filter_scanMessages` — a scan announces its findings, one by one,
    • `Agrees` — the exit code and the messages of a run that scans fit together,
    • `exit_code_agrees_with_messages` — they do in every run that exits.
-/
import Mathlib.Tactic.SplitIfs
import TaintFlow.Command.Run
import TaintFlow.Proofs.Accounting

namespace TaintFlow.Command

/-! ## §1. Ways to exit. -/

/-- What keeps a run from scanning: there is no target, it does not exist, or the catalog is refused with a message. -/
inductive Hindered (a : Arguments) (config : Config) (d : Disk) : Prop where
  | noTarget (htarget : a.target.getD "" = "")
  | targetMissing {target : String} (htarget : a.target = some target)
      (hmissing : d.pathExists (Path.normalized target) = false)
  | catalogFailed {why : CatalogRefusal} (hcatalog : catalogOf config d = .error (.refused why))

/-- **The ways in which a run that starts no service can exit**, with all that it says and its exit code. -/
inductive Exits (limits : Limits) (a : Arguments) (config : Config) (d : Disk) : List Message → Nat → Prop where
  | noTarget (htarget : a.target.getD "" = "") : Exits limits a config d [.banner, .help, .noTarget] exitFailed
  | targetMissing {target : String} (htarget : a.target = some target)
      (hmissing : d.pathExists (Path.normalized target) = false) :
      Exits limits a config d [.banner, .targetMissing target] exitFailed
  | catalogFailed {why : CatalogRefusal} (hcatalog : catalogOf config d = .error (.refused why)) :
      Exits limits a config d [.banner, .catalogFailed why] exitFailed
  | scanned {target : String} {catalog : Catalog} {o : Options} {s : Scan} {saved : List Message}
      (htarget : a.target = some target) (hne : target ≠ "") (hfound : d.pathExists (Path.normalized target) = true)
      (hcatalog : catalogOf config d = .ok catalog) (hoptions : Options.ofConfig config = .ok o)
      (hscan : scan limits o catalog d (Path.normalized target) = .ok s)
      (hsaved : ∀ m ∈ saved, ∃ path, m = .reportSaved path) :
      Exits limits a config d (.banner :: (scanMessages s ++ saved)) (exitCode a s)

/-- A step of writing goes on with the disk that the step before it left. -/
theorem exists_of_andThen_eq_ok {α β : Type} {w : Report.Writing α} {f : α → Report.Writing β} {d after : Disk} {b : β}
    (h : (w >>= f).run d = (.ok b, after)) :
    ∃ x written, w.run d = (.ok x, written) ∧ (f x).run written = (.ok b, after) := by
  change (ExceptT.bindCont f (w.run d).1).run (w.run d).2 = _ at h
  rcases hw : w.run d with ⟨cause | x, written⟩
  · rw [hw] at h
    cases h
  · rw [hw] at h
    exact ⟨x, written, rfl, h⟩

section Ways

variable {limits : Limits} {clock : Clock} {a : Arguments} {config : Config} {d after : Disk} {s : Scan}

/-- All that is said about reports is where they are. -/
theorem saved_of_reportOn {saved : List Message} (h : (reportOn a config clock s).run d = (.ok saved, after)) :
    ∀ m ∈ saved, ∃ path, m = .reportSaved path := by
  unfold reportOn at h
  cases hdirectory : a.output.filter fun o => o ≠ "" with
  | none =>
    rw [hdirectory] at h
    cases h
    exact nofun
  | some directory =>
    rw [hdirectory] at h
    obtain ⟨path, written, -, hsaid⟩ := exists_of_andThen_eq_ok h
    cases hsaid
    exact fun m hm => ⟨path, List.mem_singleton.1 hm⟩

/-- A run that gets as far as its report on a scan exits if the report can be written. -/
theorem exit_of_conclude {code : Nat} {course : Course} (hcourse : conclude a config clock s d = course)
    (hexit : course.ending = .exit code) :
    code = exitCode a s ∧ ∃ saved, course.messages = scanMessages s ++ saved ∧
      ∀ m ∈ saved, ∃ path, m = .reportSaved path := by
  unfold conclude at hcourse
  rcases hreport : (reportOn a config clock s).run d with ⟨cause | saved, after⟩
  · rw [hreport] at hcourse
    subst hcourse
    cases hexit
  · rw [hreport] at hcourse
    subst hcourse
    cases hexit
    exact ⟨rfl, saved, rfl, saved_of_reportOn hreport⟩

theorem exits_scanTarget {target : String} {code : Nat} {course : Course} (htarget : a.target = some target)
    (hne : target ≠ "") (hcourse : scanTarget limits a config clock target d = course)
    (hexit : course.ending = .exit code) : Exits limits a config d (.banner :: course.messages) code := by
  unfold scanTarget at hcourse
  -- a name that is too long to be asked for stops the run; it does not exit
  split_ifs at hcourse with hlong hmissing
  · subst hcourse
    cases hexit
  · subst hcourse
    cases hexit
    exact .targetMissing htarget (by simpa using hmissing)
  · have hfound : d.pathExists (Path.normalized target) = true := by simpa using hmissing
    cases hcatalog : catalogOf config d with
    | error cause =>
      rw [hcatalog] at hcourse
      cases cause with
      | refused why =>
        subst hcourse
        cases hexit
        exact .catalogFailed hcatalog
      | _ =>
        subst hcourse
        cases hexit
    | ok catalog =>
      rw [hcatalog] at hcourse
      dsimp only at hcourse
      cases hoptions : Options.ofConfig config with
      | error cause =>
        rw [hoptions] at hcourse
        subst hcourse
        cases hexit
      | ok o =>
        rw [hoptions] at hcourse
        dsimp only at hcourse
        cases hscan : scan limits o catalog d (Path.normalized target) with
        | error cause =>
          rw [hscan] at hcourse
          subst hcourse
          cases hexit
        | ok s =>
          rw [hscan] at hcourse
          obtain ⟨rfl, saved, hmessages, hsaved⟩ := exit_of_conclude hcourse hexit
          rw [hmessages]
          exact .scanned htarget hne hfound hcatalog hoptions hscan hsaved

/-- **There are no other ways to exit.** -/
theorem exits_runWith {home : String} {code : Nat} (hweb : a.web = false)
    (hexit : (runWith limits clock home a d).ending = .exit code) :
    ∃ config, configOf home a d = .ok config ∧ Exits limits a config d (runWith limits clock home a d).messages code := by
  unfold runWith at hexit ⊢
  cases hconfig : configOf home a d with
  | error cause =>
    rw [hconfig] at hexit
    cases hexit
  | ok config =>
    refine ⟨config, rfl, ?_⟩
    rw [hconfig] at hexit
    simp only [hweb, Bool.false_eq_true, if_false] at hexit ⊢
    cases htarget : a.target.filter fun t => t ≠ "" with
    | none =>
      rw [htarget] at hexit
      cases hexit
      refine .noTarget ?_
      cases hgiven : a.target with
      | none => rfl
      | some target =>
        rw [hgiven] at htarget
        simpa using htarget
    | some target =>
      rw [htarget] at hexit
      obtain ⟨hgiven, hne⟩ := Option.filter_eq_some_iff.1 htarget
      exact exits_scanTarget hgiven (by simpa using hne) rfl hexit

end Ways

/-! ## §2. What is said about slices. -/

/-- Does the message call a slice vulnerable? -/
def Message.saysVulnerable : Message → Bool
  | .sliceVulnerable .. => true
  | _ => false

/-- What is said about a finding. -/
def announcement (f : Finding) : Message := .sliceVulnerable (Path.baseName f.file) f.pattern

section Slices

variable {limits : Limits} {o : Options} {c : Catalog} {d : Disk} {path target : String} {r : SliceRecord} {s : Scan}

/-- A slice is called vulnerable once for each of its findings. -/
theorem filter_sliceMessages (h : Scanned limits o c d path r) :
    (sliceMessages r).filter (·.saysVulnerable) = r.findings.map announcement := by
  unfold sliceMessages
  -- the messages are chosen by the error and the flag, the findings by the violated patterns
  cases herror : r.error? with
  | some error =>
    have hfailed : r.isFailed = true := by
      rw [SliceRecord.isFailed, herror]
      rfl
    rw [SliceRecord.findings_of_failed hfailed]
    rfl
  | none =>
    dsimp only
    split_ifs with hvulnerable
    · unfold SliceRecord.findings
      rw [List.map_map, List.filter_eq_self.2]
      · rfl
      · intro m hm
        obtain ⟨pattern, -, rfl⟩ := List.mem_map.1 hm
        rfl
    · have hnone : r.findings = [] := Classical.byContradiction fun hne => hvulnerable (h.isVulnerable_iff.2 hne)
      rw [hnone]
      rfl

/-- Something is said about every slice. -/
theorem sliceMessages_ne_nil (h : Scanned limits o c d path r) : sliceMessages r ≠ [] := by
  unfold sliceMessages
  cases r.error? with
  | some error => exact List.cons_ne_nil _ _
  | none =>
    dsimp only
    split_ifs with hvulnerable
    · -- a vulnerable slice has a violated pattern to be named
      intro hnil
      rw [List.map_eq_nil_iff, ← SliceRecord.findings_eq_nil_iff] at hnil
      exact h.isVulnerable_iff.1 hvulnerable hnil
    · exact List.cons_ne_nil _ _

/-- **A scan announces its findings, one by one.** -/
theorem filter_scanMessages (h : scan limits o c d target = .ok s) :
    (scanMessages s).filter (·.saysVulnerable) = s.findings.map announcement := by
  have hslices : (s.slices.flatMap sliceMessages).filter (·.saysVulnerable)
      = s.slices.flatMap fun r => r.findings.map announcement := by
    rw [List.filter_flatMap]
    exact List.flatMap_congr fun r hr => filter_sliceMessages (scanned_of_mem h hr)
  unfold scanMessages Scan.findings
  rw [List.filter_append, List.map_flatMap, ← hslices]
  exact List.append_nil _

/-- There are vulnerable slices exactly if there are findings. -/
theorem vulnerableCount_pos_iff (h : scan limits o c d target = .ok s) : 0 < s.vulnerableCount ↔ s.findings ≠ [] := by
  unfold Scan.vulnerableCount Scan.findings
  rw [List.countP_pos_iff, ne_eq, List.flatMap_eq_nil_iff]
  constructor
  · rintro ⟨r, hr, hvulnerable⟩ hnone
    exact (scanned_of_mem h hr).isVulnerable_iff.1 hvulnerable (hnone r hr)
  · intro hsome
    obtain ⟨r, hr⟩ := Classical.not_forall.1 hsome
    obtain ⟨hr, hne⟩ := Classical.not_imp.1 hr
    exact ⟨r, hr, (scanned_of_mem h hr).isVulnerable_iff.2 hne⟩

end Slices

/-! ## §3. Agreement. -/

/-- **The exit code and the messages of a run that scans fit together.** -/
structure Agrees (clock : Clock) (a : Arguments) (s : Scan) (messages : List Message) (code : Nat) : Prop where
  /-- Apart from the paths of reports, all that is said follows from the scan. -/
  said : ∃ saved, messages = .banner :: (scanMessages s ++ saved) ∧ ∀ m ∈ saved, ∃ path, m = .reportSaved path
  refused : code = 2 ↔ a.failOnVulnerable = true ∧ ∃ m ∈ messages, m.saysVulnerable = true
  passed : code = 0 ↔ ¬ (a.failOnVulnerable = true ∧ ∃ m ∈ messages, m.saysVulnerable = true)
  findings : messages.filter (·.saysVulnerable) = s.findings.map announcement
  total : ((s.results clock).field "summary").field "total_findings" = .int (messages.countP (·.saysVulnerable))
  slices : ∀ r ∈ s.slices, sliceMessages r ≠ [] ∧ sliceMessages r <:+: messages

section Agreement

variable {limits : Limits} {clock : Clock} {a : Arguments} {config : Config} {d : Disk} {o : Options} {c : Catalog}
  {target : String} {s : Scan} {saved messages : List Message} {code : Nat}

/-- The exit code after a scan, told by its findings instead of its figures. -/
theorem exitCode_eq (h : scan limits o c d target = .ok s) :
    exitCode a s = if a.failOnVulnerable = true ∧ s.findings ≠ [] then 2 else 0 := by
  have hcondition : (a.failOnVulnerable && decide (0 < s.vulnerableCount)) = true
      ↔ a.failOnVulnerable = true ∧ s.findings ≠ [] := by
    rw [Bool.and_eq_true, decide_eq_true_iff, vulnerableCount_pos_iff h]
  unfold exitCode exitRefused
  exact if_congr hcondition rfl rfl

/-- Nothing else that a run says calls a slice vulnerable. -/
theorem filter_messages (h : scan limits o c d target = .ok s) (hsaved : ∀ m ∈ saved, ∃ path, m = .reportSaved path) :
    (.banner :: (scanMessages s ++ saved)).filter (·.saysVulnerable) = s.findings.map announcement := by
  have hquiet : saved.filter (·.saysVulnerable) = [] := by
    refine List.filter_eq_nil_iff.2 fun m hm => ?_
    obtain ⟨path, rfl⟩ := hsaved m hm
    exact Bool.false_ne_true
  show (scanMessages s ++ saved).filter (·.saysVulnerable) = _
  rw [List.filter_append, filter_scanMessages h, hquiet, List.append_nil]

/-- What is said about a slice stands in one piece among all that is said. -/
theorem sliceMessages_infix {r : SliceRecord} (hr : r ∈ s.slices) :
    sliceMessages r <:+: .banner :: (scanMessages s ++ saved) := by
  have hslices : sliceMessages r <:+: s.slices.flatMap sliceMessages := by
    rw [List.flatMap_def]
    exact List.infix_of_mem_flatten (List.mem_map_of_mem hr)
  refine hslices.trans ⟨[.banner, .opening], [.closing, .sliceCount s.slices.length,
    .vulnerableCount s.vulnerableCount, .safeCount s.safeCount] ++ saved, ?_⟩
  unfold scanMessages
  rw [← List.append_assoc]
  rfl

theorem agrees_of_scan (h : scan limits o c d target = .ok s) (hsaved : ∀ m ∈ saved, ∃ path, m = .reportSaved path) :
    Agrees clock a s (.banner :: (scanMessages s ++ saved)) (exitCode a s) := by
  have hfilter := filter_messages h hsaved
  have hany : (∃ m ∈ Message.banner :: (scanMessages s ++ saved), m.saysVulnerable = true) ↔ s.findings ≠ [] := by
    rw [ne_eq, ← List.map_eq_nil_iff, ← hfilter, List.filter_eq_nil_iff]
    simp only [Classical.not_forall, Classical.not_not, exists_prop]
  refine ⟨⟨saved, rfl, hsaved⟩, ?_, ?_, hfilter, ?_,
    fun r hr => ⟨sliceMessages_ne_nil (scanned_of_mem h hr), sliceMessages_infix hr⟩⟩
  · rw [exitCode_eq h, hany]
    split_ifs with hfails <;> simp [hfails]
  · rw [exitCode_eq h, hany]
    split_ifs with hfails <;> simp [hfails]
  · rw [(s.shownIn_results clock).totalFindings, List.countP_eq_length_filter, hfilter, List.length_map,
      s.length_findings]

/-- A run exits with the code 1 exactly if something keeps it from scanning. -/
theorem Exits.code_eq_one_iff (h : Exits limits a config d messages code) : code = 1 ↔ Hindered a config d := by
  cases h with
  | noTarget htarget => exact ⟨fun _ => .noTarget htarget, fun _ => rfl⟩
  | targetMissing htarget hmissing => exact ⟨fun _ => .targetMissing htarget hmissing, fun _ => rfl⟩
  | catalogFailed hcatalog => exact ⟨fun _ => .catalogFailed hcatalog, fun _ => rfl⟩
  | scanned htarget hne hfound hcatalog hoptions hscan hsaved =>
    constructor
    · -- the exit codes of a scan are others
      intro hone
      rw [exitCode_eq hscan] at hone
      split_ifs at hone
      cases hone
    · intro hhindered
      cases hhindered with
      | noTarget hmissing =>
        rw [htarget] at hmissing
        exact absurd hmissing hne
      | targetMissing htarget' hmissing =>
        obtain rfl := Option.some.inj (htarget.symm.trans htarget')
        rw [hfound] at hmissing
        cases hmissing
      | catalogFailed hcatalog' =>
        rw [hcatalog] at hcatalog'
        cases hcatalog'

end Agreement

/-- **The exit code of every run agrees with what the run says.**  It is 1 exactly if something keeps the run from
scanning.  A run that scans announces the findings it counts and says something about every slice; its code is 2 if
the command line asks for that and a slice has been called vulnerable, and 0 otherwise. -/
theorem exit_code_agrees_with_messages {limits : Limits} {clock : Clock} {home : String} {argv : List String}
    {d : Disk} {a : Arguments} {code : Nat} (hparse : Arguments.parse argv = .ok a) (hweb : a.web = false)
    (hexit : (run limits clock home argv d).ending = .exit code) :
    ∃ config, configOf home a d = .ok config ∧ (code = 1 ↔ Hindered a config d) ∧
      (¬ Hindered a config d → ∃ target catalog o s, a.target = some target ∧ catalogOf config d = .ok catalog ∧
        Options.ofConfig config = .ok o ∧ scan limits o catalog d (Path.normalized target) = .ok s ∧
        Agrees clock a s (run limits clock home argv d).messages code) := by
  have hrun : run limits clock home argv d = runWith limits clock home a d := by
    unfold run
    rw [hparse]
  rw [hrun] at hexit ⊢
  obtain ⟨config, hconfig, hexits⟩ := exits_runWith hweb hexit
  refine ⟨config, hconfig, hexits.code_eq_one_iff, fun hfree => ?_⟩
  generalize (runWith limits clock home a d).messages = messages at hexits ⊢
  cases hexits with
  | noTarget htarget => exact absurd (.noTarget htarget) hfree
  | targetMissing htarget hmissing => exact absurd (.targetMissing htarget hmissing) hfree
  | catalogFailed hcatalog => exact absurd (.catalogFailed hcatalog) hfree
  | scanned htarget hne hfound hcatalog hoptions hscan hsaved =>
    exact ⟨_, _, _, _, htarget, hcatalog, hoptions, hscan, agrees_of_scan hscan hsaved⟩

/-- A folder of three slices with a catalog of two patterns, both of which one of the slices violates. -/
def folderWithCatalog : Disk :=
  .ofTexts (mixedSlices ++ [("patterns.txt", "XSS\n$_GET\n\necho\n-\nLEAK\n$_GET\nclean\necho")])

theorem folderWithCatalog_agrees :
    let clock : Clock := ⟨2024, 1, 2, 3, 4, 5, 0, .zero false⟩
    let argv := ["--fail-on-vulnerable", "-p", "patterns.txt", "."]
    let a : Arguments := { target := some ".", patterns := some "patterns.txt", failOnVulnerable := true }
    Arguments.parse argv = .ok a ∧ a.web = false ∧ (run .standard clock "/app" argv folderWithCatalog).ending = .exit 2 ∧
      ∃ config s, configOf "/app" a folderWithCatalog = .ok config ∧ ¬ Hindered a config folderWithCatalog ∧
        Agrees clock a s (run .standard clock "/app" argv folderWithCatalog).messages 2 := by
  intro clock argv a
  have hparse : Arguments.parse argv = .ok a := rfl
  have hexit : (run .standard clock "/app" argv folderWithCatalog).ending = .exit 2 := by decide +kernel
  obtain ⟨config, hconfig, hone, hagrees⟩ := exit_code_agrees_with_messages hparse rfl hexit
  have hfree : ¬ Hindered a config folderWithCatalog := fun h => by
    cases hone.2 h
  obtain ⟨target, catalog, o, s, -, -, -, -, hs⟩ := hagrees hfree
  exact ⟨hparse, rfl, hexit, config, s, hconfig, hfree, hs⟩

end TaintFlow.Command
