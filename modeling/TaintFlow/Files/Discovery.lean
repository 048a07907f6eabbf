/-
  TaintFlow.Files.Discovery
  ─────────────────────────
  Which files a target stands for.

  A target that is a file stands for itself if it has the suffix of slices.  A directory stands
  for every entry below it with that suffix, apart from directories and links to them; hidden
  directories and those that hold tools or results are left out, and links are not entered.
-/
import TaintFlow.Files.Disk
import TaintFlow.OrderedSet

namespace TaintFlow.Discovery

/-- The suffixes of slice files. -/
def suffixes : List String := [".json"]

/-- The directories that are not entered. -/
def skippedDirectories : List String := ["node_modules", "venv", "env", "__pycache__", "build", "dist", "reports"]

/-- Is this the name of a slice file? -/
def isSliceName (name : String) : Bool := (Text.lowercase (Path.suffix name)) ∈ suffixes

/-- Is a directory with this name entered? -/
def isEntered (name : String) : Bool := !Text.startsWith name "." && name ∉ skippedDirectories

/-- Does a link in the directory at a place lead to a directory? -/
def leadsToDirectory (d : Disk) (place : Place) (target : String) : Bool :=
  match d.followLink place target with
  | .ok target => target.isDirectory
  | .error _ => false

mutual

/-- The slice files of a directory's entry with the given name.  `place` is the directory, and
`path` is the text that its entries' paths start with. -/
def ofEntry (d : Disk) (place : Place) (path name : String) : Entry → List String
  | .file _ => if isSliceName name then [Path.join path name] else []
  | .link target =>
    if isSliceName name && !leadsToDirectory d place target then [Path.join path name] else []
  | .directory entries =>
    if isEntered name then ofEntries d (place ++ [name]) (Path.join path name) entries else []

/-- The slice files below the entries of a directory. -/
def ofEntries (d : Disk) (place : Place) (path : String) : List (String × Entry) → List String
  | [] => []
  | (name, e) :: rest => ofEntry d place path name e ++ ofEntries d place path rest

end

/-- The slice files that a target stands for, ordered by their paths.  A target that is not there stands
for none, unless its name could not even be asked for. -/
def sliceFiles (d : Disk) (target : String) : Except DiskFault (List String) :=
  let path := Path.normalized target
  match d.resolve path with
  | .ok (.found _ (.file _)) => .ok (if isSliceName (Path.baseName path) then [path] else [])
  | .ok (.found place (.directory entries)) => .ok (OrderedSet.ofList (ofEntries d place path entries)).toList
  | .error .nameTooLong => .error .nameTooLong
  | _ => .ok []

end TaintFlow.Discovery
