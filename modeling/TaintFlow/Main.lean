/-
  TaintFlow.Main
  ──────────────
  The program: it takes the directory in which it is started as its disk, makes a run, says what
  the run says, and writes the files that the run has added or changed.
-/
import Std.Time
import TaintFlow.Command.Run

namespace TaintFlow.Command

/-- The directory of the files that come with the program. -/
def programHome : String := "<slice-analyzer>"

/-- What a directory has under a name.  A link to a file counts as the file, and what cannot be read is
left out. -/
partial def entryOf (e : IO.FS.DirEntry) : IO (List (String × Entry)) := do
  let content : IO (List (String × Entry)) := do
    if (← e.path.symlinkMetadata).type == .dir then
      return [(e.fileName, .directory (← (← e.path.readDir).toList.mapM entryOf).flatten)]
    else if (← e.path.metadata).type == .file then
      return [(e.fileName, .file (← IO.FS.readBinFile e.path).toList)]
    else return []
  try content catch _ => return []

/-- The disk with the directory in which the program is started, and with nothing outside of it. -/
def currentDisk : IO Disk := do
  let here ← IO.currentDir
  let entries ← (← here.readDir).toList.mapM entryOf
  return Bundled.install programHome (.alone (Path.parts here.toString) entries.flatten)

/-- The present moment. -/
def currentClock : IO Clock := do
  let now ← Std.Time.PlainDateTime.now
  return ⟨now.date.year.toInt.toNat, now.date.month.val.toNat, now.date.day.val.toNat, now.time.hour.val.toNat,
    now.time.minute.val.toNat, now.time.second.val.toNat, now.time.nanosecond.val.toNat / 1000, .zero false⟩

/-- Write a file below the directory in which the program is started. -/
def writeBack (path : String) (bytes : List UInt8) : IO Unit := do
  let place := (← IO.currentDir) / path
  if let some directory := place.parent then IO.FS.createDirAll directory
  IO.FS.writeBinFile place ⟨bytes.toArray⟩

/-- Say and write what a run comes to, and end as it ends. -/
def perform (before : Disk) (course : Course) : IO UInt32 := do
  let out ← IO.getStdout
  out.putStr (transcript course.messages)
  out.flush
  let known := before.files
  for (path, bytes) in course.disk.files do
    unless known.contains (path, bytes) do writeBack path bytes
  match course.ending with
  | .exit code => return UInt32.ofNat code
  | .serve port _ =>
    let number := (port.map toString).getD ""
    IO.eprintln s!"no listener for port {number}"
    return 1
  | .stopped cause =>
    IO.eprintln (reprStr cause)
    return 1

end TaintFlow.Command

/-- The program. -/
def main (argv : List String) : IO UInt32 := do
  let before ← TaintFlow.Command.currentDisk
  TaintFlow.Command.perform before
    (TaintFlow.Command.run .standard (← TaintFlow.Command.currentClock) TaintFlow.Command.programHome argv before)
