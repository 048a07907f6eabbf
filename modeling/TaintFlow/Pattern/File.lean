/-
  TaintFlow.Pattern.File
  ──────────────────────
  Catalogs from files.  The ending of the file's name tells a document from the text format.
-/
import TaintFlow.Files.Disk
import TaintFlow.Log.Event
import TaintFlow.Pattern.Catalog

namespace TaintFlow.Catalog

/-- The endings of files that hold documents. -/
def documentEndings : List String := [".yaml", ".yml"]

/-- Does a file with this name hold a document? -/
def isDocumentName (path : String) : Bool :=
  documentEndings.any fun ending => Text.endsIn (Text.lowercase path) ending

/-- The catalog of a file's text. -/
def ofFileText (path content : String) : Except CatalogError Catalog :=
  if isDocumentName path then ofYaml content else ofText content

/-- The catalog of a file, and the occasion of having read it. -/
def load (d : Disk) (path : String) : Except CatalogError (Catalog × Event) :=
  if d.isFile path then
    match d.readText path with
    | .ok content => do
      let c ← ofFileText path content
      return (c, .catalogLoaded path c.patterns.length)
    | .error _ => .error (.refused (.fileMissing path))
  else .error (.refused (.fileMissing path))

/-- The greatest number that an open file can have. -/
def maxFileNumber : Int := 0x7FFFFFFF

/-- The catalog of the file that a setting names.  A whole number or a truth value names an open file,
which none of those numbers is, and bytes may name a file but have no ending that could be told. Other
values name none. -/
def loadSetting (d : Disk) (setting : Datum) : Except CatalogError (Catalog × Event) :=
  match setting with
  | .text path => load d path
  | .int n =>
    if maxFileNumber < n ∨ n < -maxFileNumber - 1 then .error .pathNumberTooGreat
    else .error (.refused (.fileMissing setting.display))
  | .bool _ => .error (.refused (.fileMissing setting.display))
  | .scalar (.bytes bytes) =>
    match Text.utf8? bytes with
    | some path =>
      if d.isFile (String.ofList path) then .error .pathNotAText
      else .error (.refused (.fileMissing setting.display))
    | none => .error (.refused (.fileMissing setting.display))
  | _ => .error .pathNotAText

end TaintFlow.Catalog
