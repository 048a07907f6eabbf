/-
  TaintFlow.Files.Path
  ────────────────────
  Paths as texts: their components, their plain form, and the parts of a file's name.
-/
import TaintFlow.Text.Blank

namespace TaintFlow.Path

/-- The components of a path.  Two slashes in a row have an empty one between them, and so has a
slash at the end behind it. -/
def components (path : String) : List String := Text.split '/' path

/-- Does the path start at the root? -/
def isAbsolute (path : String) : Bool := Text.startsWith path "/"

/-- The components that count: neither the empty one nor the one for the directory itself. -/
def parts (path : String) : List String := (components path).filter fun c => c ≠ "" ∧ c ≠ "."

/-- The slashes that the plain form of a path starts with: two stay two, more are one. -/
def rootOf (path : String) : String :=
  if !isAbsolute path then ""
  else if Text.startsWith path "//" && !Text.startsWith path "///" then "//" else "/"

/-- The plain form of a path: one slash between components, none at the end, and a dot for the
directory itself.  Steps upwards stay. -/
def normalized (path : String) : String :=
  let plain := rootOf path ++ Text.joinWith "/" (parts path)
  if plain = "" then "." else plain

/-- The path of an entry below a directory. -/
def join (directory name : String) : String :=
  if isAbsolute name then name
  else if directory = "" || Text.endsIn directory "/" then directory ++ name
  else directory ++ "/" ++ name

/-- The last component of a path. -/
def baseName (path : String) : String := (components path).getLastD ""

/-- The suffix of a name: the last dot and what follows it, unless the dot is the first or the last
character. -/
def suffix (name : String) : String :=
  let reversed := name.toList.reverse
  let tail := reversed.takeWhile (· ≠ '.')
  if tail.isEmpty || reversed.length ≤ tail.length + 1 then ""
  else String.ofList ('.' :: tail.reverse)

end TaintFlow.Path
