/-
  TaintFlow.Files.Disk
  ────────────────────
  A file system, as a value.

  A disk is a tree of directories with files and symbolic links in it, and the place of the directory
  that the program runs in.  An absolute path is followed from the root, any other from that place,
  component by component and through links, whose targets are followed in the same way
  (`Disk.resolve`); reading, making directories and writing rest on that.
-/
import TaintFlow.Files.Path
import TaintFlow.OrderedMap
import TaintFlow.Text.Quoted
import TaintFlow.Text.Utf8

namespace TaintFlow

/-- What a directory can have under a name. -/
inductive Entry where
  | file (bytes : List UInt8)
  | link (target : String)
  | directory (entries : List (String × Entry))
  deriving Repr

instance : Inhabited Entry := ⟨.directory []⟩

/-- A place on a disk: the names on the way down to it from the root. -/
abbrev Place := List String

/-- The entries of the root, and the place of the directory that the program runs in. -/
structure Disk where
  entries : List (String × Entry)
  current : Place := []

/-- What a path leads to. -/
inductive Target where
  /-- An entry at a place. -/
  | found (place : Place) (e : Entry)
  /-- A name that the directory at a place does not have. -/
  | absent (directory : Place) (name : String)

/-! ## §1. Faults. -/

/-- Why something cannot be done with a path. -/
inductive DiskFault where
  | missing
  | alreadyThere
  | notADirectory
  | isADirectory
  | nameTooLong
  | tooManyLinks
  /-- The path has the character in it that ends all paths. -/
  | impossible
  deriving DecidableEq, Repr

/-- The number of a fault; one that is met before the disk is asked has none. -/
def DiskFault.number? : DiskFault → Option Nat
  | .missing => some 2
  | .alreadyThere => some 17
  | .notADirectory => some 20
  | .isADirectory => some 21
  | .nameTooLong => some 36
  | .tooManyLinks => some 40
  | .impossible => none

/-- The words for a fault. -/
def DiskFault.words : DiskFault → String
  | .missing => "No such file or directory"
  | .alreadyThere => "File exists"
  | .notADirectory => "Not a directory"
  | .isADirectory => "Is a directory"
  | .nameTooLong => "File name too long"
  | .tooManyLinks => "Too many levels of symbolic links"
  | .impossible => "embedded null byte"

/-- The wording of a fault that a path led to. -/
def DiskFault.message (fault : DiskFault) (path : String) : String :=
  match fault.number? with
  | some number =>
    let quotedPath := Text.quoted path
    s!"[Errno {number}] {fault.words}: {quotedPath}"
  | none => fault.words

/-- Is this a directory? -/
def Target.isDirectory : Target → Bool
  | .found _ (.directory _) => true
  | _ => false

namespace Disk

/-! ## §2. Places. -/

/-- The root directory. -/
def root (d : Disk) : Entry := .directory d.entries

/-- The entries of a root that has nothing but a directory with the given entries at a place. -/
def around : Place → List (String × Entry) → List (String × Entry)
  | [], entries => entries
  | name :: rest, entries => [(name, .directory (around rest entries))]

/-- The disk with nothing but the directory that the program runs in. -/
def alone (place : Place) (entries : List (String × Entry)) : Disk := ⟨around place entries, place⟩

/-- The entry at a place, where no link is followed. -/
def entryAt : Place → Entry → Option Entry
  | [], e => some e
  | name :: rest, .directory entries => (Assoc.get? name entries).bind (entryAt rest)
  | _ :: _, _ => none

/-- The entries with another entry put at a place; directories on the way are made. -/
def putAt (e : Entry) : Place → List (String × Entry) → List (String × Entry)
  | [], entries => entries
  | [name], entries => Assoc.put name e entries
  | name :: rest, entries =>
    match Assoc.get? name entries with
    | some (.directory inner) => Assoc.put name (.directory (putAt e rest inner)) entries
    | _ => Assoc.put name (.directory (putAt e rest [])) entries

/-- Put an entry at a place. -/
def put (d : Disk) (place : Place) (e : Entry) : Disk := { d with entries := putAt e place d.entries }

/-! ## §3. Following paths. -/

/-- How many links a path may lead through. -/
def linkLimit : Nat := 40

/-- How many bytes a name may have. -/
def nameLimit : Nat := 255

/-- How many bytes a path may have. -/
def pathLimit : Nat := 4095

/-- Is the name too long for any directory? -/
def isLongName (name : String) : Bool := nameLimit < name.utf8ByteSize

/-- What is wrong with a path whatever the disk holds. -/
def pathFault? (path : String) : Option DiskFault :=
  if path.toList.contains '\x00' then some .impossible
  else if path = "" then some .missing
  else if pathLimit < path.utf8ByteSize then some .nameTooLong
  else none

/-- The place that a path is followed from: the root, or else the given one. -/
def startOf (path : String) (above : Place) : Place := if Path.isAbsolute path then [] else above

/-- Follow components from a place, given with the innermost name first.  `onLink` tells how to go
on where a link is met. -/
def followBy (d : Disk) (onLink : List String → Place → Except DiskFault Target) :
    List String → Place → Except DiskFault Target
  | [], above =>
    match entryAt above.reverse d.root with
    | some e => .ok (.found above.reverse e)
    | none => .error .missing
  | c :: rest, above =>
    match entryAt above.reverse d.root with
    | some (.directory entries) =>
      if c = "" ∨ c = "." then followBy d onLink rest above
      -- nothing is above the root, which is its own parent
      else if c = ".." then followBy d onLink rest above.tail
      else if isLongName c then .error .nameTooLong
      else
        match Assoc.get? c entries with
        | none => if rest.isEmpty then .ok (.absent above.reverse c) else .error .missing
        | some (.link target) => onLink (Path.components target ++ rest) (startOf target above)
        | some _ => followBy d onLink rest (c :: above)
    | some _ => .error .notADirectory
    | none => .error .missing

/-- Follow components from a place through at most `links` links. -/
def follow (d : Disk) : (links : Nat) → List String → Place → Except DiskFault Target
  | 0, _, _ => .error .tooManyLinks
  | links + 1, components, above => followBy d (follow d links) components above

/-- What a link in the directory at a place leads to. -/
def followLink (d : Disk) (place : Place) (target : String) : Except DiskFault Target :=
  d.follow linkLimit (Path.components target) (startOf target place.reverse)

/-- Where a path leads, whether something is there or not. -/
def locate (d : Disk) (path : String) : Except DiskFault Target :=
  match pathFault? path with
  | some fault => .error fault
  | none => d.follow (linkLimit + 1) (Path.components path) (startOf path d.current.reverse)

/-- What a path leads to. -/
def resolve (d : Disk) (path : String) : Except DiskFault Target := do
  match ← d.locate path with
  | .absent .. => throw .missing
  | target => return target

/-- Does the path lead anywhere? -/
def pathExists (d : Disk) (path : String) : Bool := (d.resolve path).isOk

/-- Does the path lead to a file? -/
def isFile (d : Disk) (path : String) : Bool :=
  match d.resolve path with
  | .ok (.found _ (.file _)) => true
  | _ => false

/-! ## §4. Reading. -/

/-- The bytes of the file that a path leads to. -/
def readBytes (d : Disk) (path : String) : Except DiskFault (List UInt8) := do
  match ← d.resolve path with
  | .found _ (.file bytes) => return bytes
  | .found _ (.directory _) => throw .isADirectory
  | .found _ (.link _) | .absent .. => throw .missing

/-- The text of bytes: every byte is a character of its own where the bytes are not well formed
otherwise.  Every kind of line break becomes a line feed. -/
def textOfBytes (bytes : List UInt8) : String :=
  String.ofList (Text.unifyBreaks ((Text.utf8? bytes).getD (Text.latin1 bytes)))

/-- The text of the file that a path leads to. -/
def readText (d : Disk) (path : String) : Except DiskFault String := do
  return textOfBytes (← d.readBytes path)

/-! ## §5. Directories and files made. -/

/-- Make the directory at the end of a path, given by its parts with the last one first.  The path is followed
from `start`. -/
def makeDirectory (d : Disk) (start : Place) (reversed : List String) : Except DiskFault Disk :=
  match reversed with
  | [] => .error .alreadyThere
  | name :: above => do
    match ← d.follow (linkLimit + 1) above.reverse start with
    | .found place (.directory entries) =>
      if name = ".." ∨ (Assoc.get? name entries).isSome then throw .alreadyThere
      else if isLongName name then throw .nameTooLong
      else return d.put (place ++ [name]) (.directory [])
    | .absent .. => throw .missing
    | .found .. => throw .notADirectory

/-- A directory that is there already is as good as one that is made. -/
def acceptPresent (d : Disk) (start : Place) (reversed : List String) (fault : DiskFault) : Except DiskFault Disk :=
  match d.follow (linkLimit + 1) reversed.reverse start with
  | .ok target => if target.isDirectory then .ok d else .error fault
  | .error _ => .error fault

/-- Make the directory at the end of a path and those on the way to it. -/
def makeDirectories (d : Disk) (start : Place) : (reversed : List String) → Except DiskFault Disk
  | [] => .ok d
  | name :: above =>
    match d.makeDirectory start (name :: above) with
    | .ok made => .ok made
    | .error .missing => do
      let made ← makeDirectories d start above
      match made.makeDirectory start (name :: above) with
      | .ok done => .ok done
      | .error .missing => .error .missing
      | .error fault => made.acceptPresent start (name :: above) fault
    | .error fault => d.acceptPresent start (name :: above) fault

/-- Make a directory and those above it as needed. -/
def ensureDirectory (d : Disk) (path : String) : Except DiskFault Disk :=
  match pathFault? (Path.normalized path) with
  | some fault => .error fault
  | none => d.makeDirectories (startOf path d.current.reverse) (Path.parts path).reverse

/-- Write bytes to the file that a path leads to, which may be new. -/
def writeBytes (d : Disk) (path : String) (bytes : List UInt8) : Except DiskFault Disk := do
  match ← d.locate path with
  | .found place (.file _) => return d.put place (.file bytes)
  | .absent directory name => return d.put (directory ++ [name]) (.file bytes)
  | .found .. => throw .isADirectory

/-- Write a text to the file that a path leads to, which may be new. -/
def writeText (d : Disk) (path text : String) : Except DiskFault Disk := d.writeBytes path (Text.utf8Bytes text)

/-- Put a link into the directory that a path leads to. -/
def makeLink (d : Disk) (directory name target : String) : Except DiskFault Disk := do
  match ← d.resolve directory with
  | .found place (.directory _) => return d.put (place ++ [name]) (.link target)
  | _ => throw .notADirectory

/-! ## §6. All files. -/

mutual

/-- The files below an entry with their paths.  A link to a file counts as one, and `place` is the
directory that the entry is in. -/
def filesBelow (d : Disk) (place : Place) (path name : String) : Entry → List (String × List UInt8)
  | .file bytes => [(path, bytes)]
  | .link target =>
    match d.followLink place target with
    | .ok (.found _ (.file bytes)) => [(path, bytes)]
    | _ => []
  | .directory entries => filesAmong d (place ++ [name]) path entries

/-- The files below entries with their paths. -/
def filesAmong (d : Disk) (place : Place) (path : String) : List (String × Entry) → List (String × List UInt8)
  | [] => []
  | (name, e) :: rest => filesBelow d place (Path.join path name) name e ++ filesAmong d place path rest

end

/-- All files below the directory that the program runs in, with their paths from there. -/
def files (d : Disk) : List (String × List UInt8) :=
  match entryAt d.current d.root with
  | some (.directory entries) => filesAmong d d.current "" entries
  | _ => []

end Disk

end TaintFlow
