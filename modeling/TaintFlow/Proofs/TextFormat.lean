/-
  TaintFlow.Proofs.TextFormat
  ───────────────────────────
  **Which texts are catalogs in the text format.**

  The reader goes through the lines once and gathers them into groups.  What it accepts can be said
  of the text as a whole: delimiters cut the lines into segments, and each segment is looked at on
  its own.

    • `segments` — the lines between delimiters, with the number of the line that ends them,
    • `Segment.normalized` — a segment without the blank lines that do not count,
    • `Segment.Fits` — it has four lines, or it is the blank end of the text,
    • `readLines_eq` — reading line by line is reading segment by segment,
    • `ofText_accepts_segments` — a text is a catalog exactly if all segments fit, and otherwise
      the first one that does not is named.
-/
import Mathlib.Data.List.DropRight
import TaintFlow.Pattern.Catalog
import TaintFlow.Proofs.Scanning

namespace TaintFlow.Catalog

/-! ## §1. Segments. -/

/-- Lines without a delimiter among them, and the number of the delimiter's line that ends them; the
last ones are ended by the text. -/
structure Segment where
  lines : List String
  endLine : Option Nat
  deriving DecidableEq, Repr

/-- The segments of trimmed lines, the first of which has the given number. -/
def segmentsFrom (number : Nat) (lines : List String) : List Segment :=
  List.zipWith Segment.mk (lines.splitOn delimiter) ((lines.idxsOf delimiter number).map some ++ [none])

/-- The segments of a text, whose lines are numbered from one. -/
def segments (content : String) : List Segment := segmentsFrom 1 ((Text.lines content).map Text.trim)

/-- The lines without the blank ones at the end, of which four lines are spared. -/
def withoutExcess (lines : List String) : List String := lines.take 4 ++ (lines.drop 4).rdropWhile (· = "")

namespace Segment

/-- The lines that count: not the blank ones in front, and not those at the end that are too many. -/
def normalized (s : Segment) : List String := withoutExcess (s.lines.dropWhile (· = ""))

/-- Nothing but blank lines at the end of the text. -/
def IsIdle (s : Segment) : Prop := s.endLine = none ∧ ∀ line ∈ s.lines, line = ""

instance (s : Segment) : Decidable s.IsIdle := inferInstanceAs (Decidable (_ ∧ _))

/-- **The segment has its place in a catalog.** -/
def Fits (s : Segment) : Prop := s.normalized.length = 4 ∨ s.IsIdle

instance (s : Segment) : Decidable s.Fits := inferInstanceAs (Decidable (_ ∨ _))

/-- The pattern of a segment with four lines. -/
def pattern? (s : Segment) : Option Pattern :=
  match s.normalized with
  | [name, entryPoints, sanitizers, sinks] => some (.ofLines name entryPoints sanitizers sinks)
  | _ => none

/-- What becomes of a segment on its own. -/
def read (s : Segment) : Except CatalogError (Option Pattern) :=
  if s.Fits then .ok s.pattern? else .error (.refused (.badGroup s.endLine s.normalized.length))

/-- The segment with further lines in front. -/
def behind (earlier : List String) (s : Segment) : Segment := { s with lines := earlier ++ s.lines }

end Segment

theorem segmentsFrom_nil (number : Nat) : segmentsFrom number [] = [⟨[], none⟩] := rfl

/-- A delimiter ends the empty segment in front of it; any other line belongs to the first segment of the rest. -/
theorem segmentsFrom_cons (number : Nat) (line : String) (rest : List String) :
    segmentsFrom number (line :: rest)
      = if line = delimiter then ⟨[], some number⟩ :: segmentsFrom (number + 1) rest
        else (segmentsFrom (number + 1) rest).modifyHead (Segment.behind [line]) := by
  unfold segmentsFrom
  rw [List.splitOn, List.splitOnP_cons_eq_if_modifyHead, List.idxsOf_cons]
  by_cases h : line = delimiter
  · simp [h, List.splitOn]
  · obtain ⟨first, others, hsplit⟩ := List.exists_cons_of_ne_nil (List.splitOnP_ne_nil (· == delimiter) rest)
    obtain ⟨ending, endings, hends⟩ : ∃ ending endings,
        ((rest.idxsOf delimiter (number + 1)).map some ++ [none]) = ending :: endings :=
      List.exists_cons_of_ne_nil (List.append_ne_nil_of_right_ne_nil _ (List.cons_ne_nil _ _))
    simp [h, List.splitOn, hsplit, hends, Segment.behind]

theorem behind_nil (segs : List Segment) : segs.modifyHead (Segment.behind []) = segs := by
  cases segs <;> rfl

theorem behind_behind (earlier later : List String) (segs : List Segment) :
    (segs.modifyHead (Segment.behind later)).modifyHead (Segment.behind earlier)
      = segs.modifyHead (Segment.behind (earlier ++ later)) := by
  cases segs with
  | nil => rfl
  | cons s segs => simp [Segment.behind]

/-! ## §2. Groups. -/

/-- Dropping blank lines one by one spares the first four lines. -/
theorem dropExcessBlank_reverse (lines : List String) :
    dropExcessBlank lines.reverse = (withoutExcess lines).reverse := by
  induction lines using List.reverseRecOn with
  | nil => rfl
  | append_singleton lines line ih =>
    rw [List.reverse_append, List.reverse_singleton, List.singleton_append, dropExcessBlank, List.length_reverse, ih]
    unfold withoutExcess
    by_cases hlength : 4 ≤ lines.length
    · rw [List.take_append_of_le_length hlength, List.drop_append_of_le_length hlength, List.rdropWhile_concat]
      by_cases hblank : line = ""
      · simp [hblank, hlength]
      · rw [if_neg fun h => hblank h.1]
        simp only [hblank, decide_false, Bool.false_eq_true, if_false]
        rw [← List.append_assoc, List.take_append_drop, List.reverse_append]
        rfl
    · have hshort : (lines ++ [line]).length ≤ 4 := by
        rw [List.length_append, List.length_singleton]
        omega
      rw [if_neg fun h => hlength h.2, List.take_of_length_le hshort, List.drop_of_length_le hshort]
      simp

/-- The first line that counts is not blank. -/
theorem ne_blank_of_normalized {s : Segment} {line : String} {rest : List String} (h : s.normalized = line :: rest) :
    line ≠ "" := by
  unfold Segment.normalized withoutExcess at h
  cases hbody : s.lines.dropWhile (· = "") with
  | nil =>
    rw [hbody] at h
    simp at h
  | cons first others =>
    rw [hbody] at h
    have hfirst : first = line := by
      simp only [List.take_succ_cons, List.cons_append, List.cons.injEq] at h
      exact h.1
    have hnot := List.head_dropWhile_not (· = "") (l := s.lines) (by simp [hbody])
    simpa [hbody, hfirst] using hnot

/-- Four lines are a pattern, and any other number of lines is none. -/
theorem pattern?_isSome_iff (s : Segment) : s.pattern?.isSome = true ↔ s.normalized.length = 4 := by
  unfold Segment.pattern?
  split
  · rename_i hlines
    simp [hlines]
  · rename_i hlines
    refine ⟨nofun, fun hlength => ?_⟩
    obtain ⟨a, b, c, d, heq⟩ := List.length_eq_four.1 hlength
    exact absurd heq (hlines a b c d)

/-- The pattern of the gathered lines is that of the segment. -/
theorem patternOfGroup_eq (lines : List String) (endLine : Option Nat) :
    patternOfGroup (lines.dropWhile (· = "")).reverse endLine
      = (Segment.mk lines endLine).pattern?.elim
          (.error (.refused (.badGroup endLine (Segment.mk lines endLine).normalized.length))) .ok := by
  have hnormalized : withoutExcess (lines.dropWhile (· = "")) = (Segment.mk lines endLine).normalized := rfl
  unfold patternOfGroup
  rw [dropExcessBlank_reverse, hnormalized]
  cases hpattern : (Segment.mk lines endLine).pattern? with
  | some p =>
    unfold Segment.pattern? at hpattern
    split at hpattern
    · rename_i name entryPoints sanitizers sinks hlines
      have hname := ne_blank_of_normalized hlines
      rw [hlines]
      simp only [List.reverse_cons, List.reverse_nil, List.nil_append, List.cons_append, hname, if_false]
      exact congrArg Except.ok (Option.some.inj hpattern)
    · cases hpattern
  | none =>
    have hlength : (Segment.mk lines endLine).normalized.length ≠ 4 := by
      rw [ne_eq, ← pattern?_isSome_iff, hpattern]
      exact nofun
    split
    · rename_i sinks sanitizers entryPoints name hgroup
      rw [List.reverse_eq_iff] at hgroup
      rw [hgroup] at hlength
      exact absurd rfl hlength
    · rw [List.length_reverse]
      rfl

/-- A segment that is not the blank end of the text is read as the lines gathered from it. -/
theorem read_of_not_idle {s : Segment} (h : ¬ s.IsIdle) :
    s.read = (patternOfGroup (s.lines.dropWhile (· = "")).reverse s.endLine).map some := by
  rw [patternOfGroup_eq]
  unfold Segment.read
  by_cases hlength : s.normalized.length = 4
  · obtain ⟨p, hp⟩ := Option.isSome_iff_exists.1 ((pattern?_isSome_iff s).2 hlength)
    rw [if_pos (.inl hlength), hp]
    rfl
  · have hnone : s.pattern? = none := by
      rw [← Option.not_isSome_iff_eq_none, pattern?_isSome_iff]
      exact hlength
    rw [if_neg fun hfits => hfits.elim hlength h, hnone]
    rfl

theorem read_of_idle {s : Segment} (h : s.IsIdle) : s.read = .ok none := by
  have hbody : s.lines.dropWhile (· = "") = [] := by simpa using h.2
  have hnone : s.pattern? = none := by
    unfold Segment.pattern? Segment.normalized
    rw [hbody]
    rfl
  rw [Segment.read, if_pos (.inr h), hnone]

/-- At the end of the text there is something to read unless all lines since the last delimiter are blank. -/
theorem any_gathered_iff (lines : List String) :
    (lines.dropWhile (· = "")).reverse.any (· ≠ "") = true ↔ ¬ (Segment.mk lines none).IsIdle := by
  have hidle : (Segment.mk lines none).IsIdle ↔ ∀ line ∈ lines, line = "" := and_iff_right rfl
  rw [hidle, List.any_reverse]
  constructor
  · intro h hblank
    have hbody : lines.dropWhile (· = "") = [] := by simpa using hblank
    rw [hbody] at h
    cases h
  · intro h
    cases hbody : lines.dropWhile (· = "") with
    | nil =>
      have hblank : ∀ line ∈ lines, line = "" := by simpa using hbody
      exact absurd hblank h
    | cons first rest =>
      have hfirst := List.head_dropWhile_not (· = "") (l := lines) (by simp [hbody])
      simp only [hbody, List.head_cons, decide_eq_false_iff_not] at hfirst
      simp [hfirst]

/-- A line is gathered unless it is a blank one in front. -/
theorem gathered_append (lines : List String) (line : String) :
    ((lines ++ [line]).dropWhile (· = "")).reverse
      = if line ≠ "" ∨ (lines.dropWhile (· = "")).reverse ≠ [] then line :: (lines.dropWhile (· = "")).reverse
        else (lines.dropWhile (· = "")).reverse := by
  rw [List.dropWhile_append]
  by_cases hbody : lines.dropWhile (· = "") = []
  · by_cases hblank : line = "" <;> simp [hbody, hblank]
  · simp [hbody]

/-! ## §3. Reading. -/

/-- **Reading line by line is reading segment by segment.** -/
theorem readLines_eq (lines earlier : List String) (number : Nat) (done : List Pattern) :
    readLines done (earlier.dropWhile (· = "")).reverse number lines
      = (((segmentsFrom number lines).modifyHead (Segment.behind earlier)).mapM Segment.read).map
          fun found => ⟨done.reverse ++ found.filterMap id⟩ := by
  -- the lines since the last delimiter, `earlier`, are put in front of the first segment that is left
  induction lines generalizing earlier number done with
  | nil =>
    rw [segmentsFrom_nil, readLines]
    have hlast : [Segment.mk [] none].modifyHead (Segment.behind earlier) = [⟨earlier, none⟩] := by
      simp [Segment.behind]
    rw [hlast, List.mapM_cons, List.mapM_nil]
    by_cases hidle : (Segment.mk earlier none).IsIdle
    · rw [if_neg fun h => (any_gathered_iff earlier).1 h hidle, read_of_idle hidle]
      simp [pure, Except.pure, bind, Except.bind, Except.map]
    · rw [if_pos ((any_gathered_iff earlier).2 hidle), read_of_not_idle hidle]
      cases patternOfGroup (earlier.dropWhile (· = "")).reverse none with
      | error e => rfl
      | ok p => simp [pure, Except.pure, bind, Except.bind, Except.map]
  | cons line rest ih =>
    rw [segmentsFrom_cons, readLines]
    by_cases hdelimiter : line = delimiter
    · rw [if_pos hdelimiter, if_pos hdelimiter]
      have hfirst : (Segment.mk [] (some number) :: segmentsFrom (number + 1) rest).modifyHead (Segment.behind earlier)
          = ⟨earlier, some number⟩ :: segmentsFrom (number + 1) rest := by
        simp [Segment.behind]
      rw [hfirst, List.mapM_cons, read_of_not_idle fun h => Option.some_ne_none number h.1]
      cases patternOfGroup (earlier.dropWhile (· = "")).reverse (some number) with
      | error e => rfl
      | ok p =>
        have hrest := ih [] (number + 1) (p :: done)
        rw [behind_nil] at hrest
        show readLines (p :: done) (List.dropWhile (· = "") []).reverse (number + 1) rest = _
        rw [hrest]
        cases (segmentsFrom (number + 1) rest).mapM Segment.read with
        | error e => rfl
        | ok found => simp [pure, Except.pure, bind, Except.bind, Except.map]
    · rw [if_neg hdelimiter, if_neg hdelimiter, behind_behind, ← ih (earlier ++ [line]), gathered_append]
      split <;> rfl

theorem ofText_eq (content : String) :
    ofText content = ((segments content).mapM Segment.read).map fun found => ⟨found.filterMap id⟩ := by
  have hread := readLines_eq ((Text.lines content).map Text.trim) [] 1 []
  rw [behind_nil] at hread
  exact hread

theorem read_eq_ok_iff {s : Segment} {found : Option Pattern} : s.read = .ok found ↔ s.Fits ∧ found = s.pattern? := by
  unfold Segment.read
  split
  · rename_i hfits
    simp [hfits, eq_comm]
  · rename_i hfits
    simp [hfits]

theorem read_eq_error_iff {s : Segment} {e : CatalogError} :
    s.read = .error e ↔ ¬ s.Fits ∧ e = .refused (.badGroup s.endLine s.normalized.length) := by
  unfold Segment.read
  split
  · rename_i hfits
    simp [hfits]
  · rename_i hfits
    simp [hfits, eq_comm]

/-- All segments are read exactly if all of them fit. -/
theorem mapM_read_eq_ok_iff {segs : List Segment} {found : List (Option Pattern)} :
    segs.mapM Segment.read = .ok found ↔ (∀ s ∈ segs, s.Fits) ∧ found = segs.map Segment.pattern? := by
  rw [mapM_eq_ok_iff]
  simp only [read_eq_ok_iff, List.forall₂_and_left]
  refine and_congr_right fun _ => ?_
  rw [eq_comm, ← List.forall₂_eq_eq_eq, List.forall₂_map_left_iff]
  simp only [eq_comm]

/-- **A text is a catalog exactly if all of its segments fit**, and the catalog then has the patterns of those with
four lines, in order.  Any other text is refused for the first segment that does not fit: the refusal has the number of
its lines and of the line that ends it. -/
theorem ofText_accepts_segments (content : String) :
    (∀ c, ofText content = .ok c ↔
      (∀ s ∈ segments content, s.Fits) ∧ c.patterns = (segments content).filterMap Segment.pattern?) ∧
    ∀ e, ofText content = .error e ↔
      ∃ before s after, segments content = before ++ s :: after ∧ (∀ t ∈ before, t.Fits) ∧ ¬ s.Fits ∧
        e = .refused (.badGroup s.endLine s.normalized.length) := by
  have hfits : ∀ t : Segment, (∃ found, t.read = .ok found) ↔ t.Fits := fun t => by
    simp only [read_eq_ok_iff, exists_and_left, exists_eq, and_true]
  have herror : ∀ e, (segments content).mapM Segment.read = .error e ↔
      ∃ before s after, segments content = before ++ s :: after ∧ (∀ t ∈ before, t.Fits) ∧ ¬ s.Fits ∧
        e = .refused (.badGroup s.endLine s.normalized.length) := fun e => by
    simp only [mapM_eq_error_iff, hfits, read_eq_error_iff]
  rw [ofText_eq]
  cases hfound : (segments content).mapM Segment.read with
  | error e =>
    refine ⟨fun c => ⟨nofun, fun ⟨hall, _⟩ => ?_⟩, fun e' => ?_⟩
    · rw [mapM_read_eq_ok_iff.2 ⟨hall, rfl⟩] at hfound
      cases hfound
    · rw [← herror, hfound]
      simp [Except.map]
  | ok found =>
    obtain ⟨hall, rfl⟩ := mapM_read_eq_ok_iff.1 hfound
    refine ⟨fun c => ?_, fun e => ⟨nofun, fun h => ?_⟩⟩
    · rw [and_iff_right hall]
      simp only [Except.map, Except.ok.injEq, List.filterMap_map, Function.id_comp]
      exact ⟨fun h => h ▸ rfl, fun h => congrArg Catalog.mk h.symm⟩
    · rw [← herror, hfound] at h
      cases h

/-- Two patterns with blank lines in front of them and behind; the second has no sanitizers, no sinks and no
delimiter. -/
def spacedCatalog : String := "\n \n SQL\n$_GET\n\nquery\n\n \n-\r\nXSS\n$_GET, $_POST\n\n\n"

/-- A pattern, and a delimiter with nothing but a blank line in front of it. -/
def emptiedCatalog : String := "SQL\n$_GET\n\nquery\n-\n\n-\nXSS\n"

theorem spacedCatalog_accepted_emptiedCatalog_refused :
    (segments spacedCatalog).map (·.endLine) = [some 9, none] ∧
    ofText spacedCatalog = .ok ⟨[.ofLines "SQL" "$_GET" "" "query", .ofLines "XSS" "$_GET, $_POST" "" ""]⟩ ∧
    ofText emptiedCatalog = .error (.refused (.badGroup (some 7) 0)) := by
  refine ⟨by decide +kernel, ?_, ?_⟩
  · exact ((ofText_accepts_segments spacedCatalog).1 _).2 ⟨by decide +kernel, by decide +kernel⟩
  · refine ((ofText_accepts_segments emptiedCatalog).2 _).2 ⟨[⟨["SQL", "$_GET", "", "query"], some 5⟩], ⟨[""], some 7⟩,
      [⟨["XSS"], none⟩], by decide +kernel, by decide +kernel, by decide +kernel, by decide +kernel⟩

end TaintFlow.Catalog
