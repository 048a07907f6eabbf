/-
  TaintFlow.Scan
  ──────────────
  The analysis of all slice files that a target stands for.

  Every file has a record of its own, which depends on that file alone: either a conclusion or
  the reason why there is none.  The findings and the summary are read off the records.
-/
import TaintFlow.Analysis.Analyze
import TaintFlow.Clock
import TaintFlow.Config
import TaintFlow.Files.Discovery
import TaintFlow.Files.Sha256

namespace TaintFlow

/-! ## §1. Records. -/

/-- What became of a slice file. -/
inductive Outcome where
  | failed (error : String)
  | concluded (conclusion : Conclusion)
  deriving DecidableEq, Repr

/-- A slice file, the digest of its bytes if they could be read, and what became of it. -/
structure SliceRecord where
  file : String
  digest : Option String
  outcome : Outcome
  deriving DecidableEq, Repr

namespace SliceRecord

/-- The verdict about a slice; a slice that failed has an empty one. -/
def verdict (r : SliceRecord) : Verdict :=
  match r.outcome with
  | .failed _ => {}
  | .concluded c => c.verdict

/-- The counts of what the analysis of a slice gave up on. -/
def diagnostics (r : SliceRecord) : Tally :=
  match r.outcome with
  | .failed _ => {}
  | .concluded c => c.diagnostics

/-- Why a slice has no conclusion. -/
def error? (r : SliceRecord) : Option String :=
  match r.outcome with
  | .failed error => some error
  | .concluded _ => none

/-- Is the slice vulnerable? -/
def isVulnerable (r : SliceRecord) : Bool := r.verdict.vulnerable

/-- Has the slice no conclusion? -/
def isFailed (r : SliceRecord) : Bool := r.error?.isSome

/-- Is there a conclusion, and is it that the slice is not vulnerable? -/
def isSafe (r : SliceRecord) : Bool := !r.isVulnerable && !r.isFailed

/-- The record as an object; `counts` tells how counts are written. -/
def toDatum (counts : Tally → Datum) (r : SliceRecord) : Datum :=
  let textOrNull (s : Option String) : Datum := s.elim .null .text
  .object
    [("file", .text r.file), ("sha256", textOrNull r.digest), ("vulnerable", .bool r.isVulnerable),
     ("violated_patterns", .list (r.verdict.violatedPatterns.map .text)),
     ("sanitizers_applied", .list (r.verdict.sanitizersApplied.map .text)),
     ("diagnostics", counts r.diagnostics), ("loop_iterations", .int r.verdict.loopIterations),
     ("error", textOrNull r.error?)]

end SliceRecord

/-! ## §2. Findings. -/

/-- A violated pattern of a slice. -/
structure Finding where
  file : String
  pattern : String
  sanitizers : List String
  deriving DecidableEq, Repr

/-- The findings of a slice, one for each time that a pattern is violated. -/
def SliceRecord.findings (r : SliceRecord) : List Finding :=
  r.verdict.violatedPatterns.map fun p => ⟨r.file, p, r.verdict.sanitizersApplied⟩

/-- The finding as an object. -/
def Finding.toDatum (f : Finding) : Datum :=
  .object
    [("id", .text "TAINT-001"), ("title", .text s!"{f.pattern}: 污点数据流向敏感操作"), ("severity", .text "high"),
     ("category", .text "taint_analysis"),
     ("description", .text s!"入口点读入的数据未经净化到达 \"{f.pattern}\" 模式的敏感汇聚点"),
     ("recommendation", .text "在数据进入敏感操作之前调用该模式列出的净化函数。"), ("file", .text f.file),
     ("pattern", .text f.pattern), ("sanitizers_applied", .list (f.sanitizers.map .text)),
     ("analyzer", .text "TaintAnalyzer")]

/-! ## §3. Scans. -/

/-- The records of a target's files, in order, with the names of the patterns looked for. -/
structure Scan where
  target : String
  patterns : List String
  slices : List SliceRecord
  deriving DecidableEq, Repr

namespace Scan

/-- The findings of all slices. -/
def findings (s : Scan) : List Finding := s.slices.flatMap (·.findings)

/-- How often each pattern is violated, in the order in which they first are. -/
def byPattern (s : Scan) : Tally :=
  (s.slices.flatMap (·.verdict.violatedPatterns)).foldl Tally.record Tally.empty

/-- The number of vulnerable slices. -/
def vulnerableCount (s : Scan) : Nat := s.slices.countP (·.isVulnerable)

/-- The number of slices with a conclusion that are not vulnerable. -/
def safeCount (s : Scan) : Nat := s.slices.countP (·.isSafe)

/-- The number of slices without a conclusion. -/
def failedCount (s : Scan) : Nat := s.slices.countP (·.isFailed)

/-- The number of findings. -/
def findingCount (s : Scan) : Nat :=
  s.slices.foldr (fun r n => r.verdict.violatedPatterns.length + n) 0

/-- The counts of a scan as an object. -/
def summary (counts : Tally → Datum) (s : Scan) : Datum :=
  .object
    [("total_slices", .int s.slices.length), ("vulnerable_slices", .int s.vulnerableCount),
     ("safe_slices", .int s.safeCount), ("failed_slices", .int s.failedCount),
     ("total_findings", .int s.findingCount), ("by_pattern", counts s.byPattern)]

/-- The scan as an object.  A scan that found no file took no time at all. -/
def toDatum (counts : Tally → Datum) (clock : Clock) (s : Scan) : Datum :=
  .object
    [("target", .text s.target), ("scan_time", if s.slices.isEmpty then .int 0 else .real clock.elapsed),
     ("scan_date", .text clock.isoText), ("files_scanned", .int s.slices.length),
     ("patterns", .list (s.patterns.map .text)), ("slices", .list (s.slices.map (·.toDatum counts))),
     ("findings", .list (s.findings.map (·.toDatum))), ("summary", s.summary counts)]

/-- Counts as an object. -/
def countsObject (t : Tally) : Datum := .object (t.toList.map fun e => (e.1, .int e.2))

/-- The scan as an object for reports. -/
def results (clock : Clock) (s : Scan) : Datum := s.toDatum countsObject clock

end Scan

/-! ## §4. Scanning. -/

/-- What ends a scan before its time. -/
inductive ScanError where
  /-- A tree in which the parts of an interpolated text cannot be walked over. -/
  | partsNotWalkable
  /-- A tree in which a number has too many digits to be written. -/
  | unwritable
  /-- A target that cannot be asked for. -/
  | target (fault : DiskFault)
  deriving DecidableEq, Repr

/-- What an analysis amounts to in a scan. -/
def Outcome.ofResult : Except AnalysisError Conclusion → Except ScanError Outcome
  | .ok c => .ok (.concluded c)
  | .error .tooDeep => .ok (.failed tooDeepMessage)
  | .error (.load (.rejected why)) => .ok (.failed why.message)
  | .error (.load .unwritable) => .error .unwritable
  | .error (.load _) => .error .partsNotWalkable

/-- The analysis of the tree in a text. -/
def analyzeText (limits : Limits) (o : Options) (catalog : Catalog) (text : String) :
    Except AnalysisError Conclusion :=
  match (Syntax.loadText limits text).1 with
  | .error e => .error (.load e)
  | .ok p => (p.analyze limits o catalog {}).1

/-- The record of a slice file. -/
def scanFile (limits : Limits) (o : Options) (catalog : Catalog) (d : Disk) (path : String) :
    Except ScanError SliceRecord :=
  match d.readBytes path with
  | .error fault => .ok ⟨path, none, .failed (fault.message path)⟩
  | .ok bytes => do
    let outcome ← Outcome.ofResult (analyzeText limits o catalog (Disk.textOfBytes bytes))
    return ⟨path, some (Sha256.hexDigest bytes), outcome⟩

/-- The scan of a target. -/
def scan (limits : Limits) (o : Options) (catalog : Catalog) (d : Disk) (target : String) :
    Except ScanError Scan := do
  let files ← (Discovery.sliceFiles d target).mapError .target
  let slices ← files.mapM (scanFile limits o catalog d)
  return ⟨target, catalog.names, slices⟩

end TaintFlow
