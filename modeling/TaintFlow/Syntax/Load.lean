/-
  TaintFlow.Syntax.Load
  ─────────────────────
  Whole trees from files, texts and values.

  A tree is an object with a list of `children`; without such a list it is an empty
  tree, and that is counted.  `LoadError` tells a tree that is refused with a message
  (`rejected`) from one that no builder can make anything of.
-/
import TaintFlow.Files.Disk
import TaintFlow.Json.Reader
import TaintFlow.Limits
import TaintFlow.Syntax.Builder

namespace TaintFlow.Syntax

/-! ## §1. Errors. -/

/-- Why a tree is refused. -/
inductive Rejection where
  | rootNotAnObject (typeName : String)
  | notJson (cause : Json.Error)
  | textTooDeep
  | treeTooDeep
  | unreadable (path : String) (fault : DiskFault)
  deriving DecidableEq, Repr

/-- The wording of a refusal. -/
def Rejection.message : Rejection → String
  | .rootNotAnObject typeName => s!"切片根节点必须是对象，实际为 {typeName}"
  | .notJson cause => s!"切片不是合法的 JSON: {cause.message}"
  | .textTooDeep => "切片嵌套过深，无法解析"
  | .treeTooDeep => "切片嵌套过深，无法构建 AST"
  | .unreadable path fault => s!"无法读取切片文件 {path}: {fault.message path}"

/-- Why a tree could not be loaded. -/
inductive LoadError where
  | rejected (why : Rejection)
  /-- The parts of an interpolated text are given by a number or a truth value. -/
  | partsNotWalkable
  /-- A literal or an operator is a number with too many digits, or has one in it. -/
  | unwritable
  /-- The path of the tree's file is none that a file can have. -/
  | impossiblePath
  deriving DecidableEq, Repr

/-- The load error that a build error amounts to. -/
def LoadError.ofBuildError : BuildError → LoadError
  | .partsNotWalkable => .partsNotWalkable
  | .unwritable => .unwritable
  | .tooDeep => .rejected .treeTooDeep

theorem LoadError.ofBuildError_inj {e e' : BuildError} (h : ofBuildError e = ofBuildError e') : e = e' := by
  cases e <;> cases e' <;> first | rfl | cases h

/-! ## §2. Loading. -/

/-- The reason under which a tree without children is counted. -/
def withoutChildren : String := "program_without_children"

/-- The notes with a tree without children counted. -/
def Notes.withoutChildren (notes : Notes) : Notes :=
  { diagnostics := notes.diagnostics.record Syntax.withoutChildren,
    events := notes.events ++ [.degraded Syntax.withoutChildren none] }

/-- The tree of a value, with the notes of its making behind those that are there already. -/
def load (limits : Limits) (data : Datum) (notes : Notes := {}) : Except LoadError Program × Notes :=
  if data.isMap then
    match data.field "children" with
    | .list children =>
      let (result, after) := (children.mapM (build limits.tree)).run notes
      match result with
      | .ok nodes => (.ok ⟨nodes⟩, after)
      | .error e => (.error (.ofBuildError e), after)
    | _ => (.ok ⟨[]⟩, notes.withoutChildren)
  else (.error (.rejected (.rootNotAnObject data.typeName)), notes)

/-- The value of a tree's text. -/
def decode (limits : Limits) (text : String) : Except Rejection Datum :=
  match Json.read limits.text text with
  | .ok data => .ok data
  | .error .tooDeep => .error .textTooDeep
  | .error e => .error (.notJson e)

/-- The tree of a text, with the notes of its making. -/
def loadText (limits : Limits) (text : String) (notes : Notes := {}) : Except LoadError Program × Notes :=
  match decode limits text with
  | .ok data => load limits data notes
  | .error why => (.error (.rejected why), notes)

section

variable {limits : Limits}

/-- A value that is no object is refused, one without a list of children is an empty tree, and the children in
a list are built one by one. -/
theorem load_cases (limits : Limits) (data : Datum) (notes : Notes) :
    (∃ why, load limits data notes = (.error (.rejected why), notes)) ∨
    load limits data notes = (.ok ⟨[]⟩, notes.withoutChildren) ∨
    ∃ children, data.field "children" = .list children ∧ ∃ built : Except BuildError (List Node) × Notes,
      (children.mapM (build limits.tree)).run notes = built ∧
      load limits data notes = ((built.1.map Program.mk).mapError LoadError.ofBuildError, built.2) := by
  unfold load
  split
  · split
    · rename_i children hchildren
      refine .inr (.inr ⟨children, hchildren, _, rfl, ?_⟩)
      rcases (children.mapM (build limits.tree)).run notes with ⟨_ | _, after⟩ <;> rfl
    · exact .inr (.inl rfl)
  · exact .inl ⟨_, rfl⟩

/-- The tree of an object with a list of children has all of them, unless one cannot be built. -/
theorem load_of_children {data : Datum} {children : List Datum} (h : data.field "children" = .list children)
    (notes : Notes) :
    load limits data notes
      = ((((children.mapM (build limits.tree)).run notes).1.map Program.mk).mapError LoadError.ofBuildError,
        ((children.mapM (build limits.tree)).run notes).2) := by
  have hmap : data.isMap = true := by
    cases data with
    | map entries => rfl
    | _ => cases h
  unfold load
  rw [if_pos hmap, h]
  dsimp only
  rcases (children.mapM (build limits.tree)).run notes with ⟨_ | _, after⟩ <;> rfl

theorem loadText_of_decode {text : String} {data : Datum} (h : decode limits text = .ok data) :
    loadText limits text = load limits data := by
  simp only [loadText, h]

theorem loadText_of_decode_error {text : String} {why : Rejection} (h : decode limits text = .error why) :
    (loadText limits text).1 = .error (.rejected why) := by
  simp only [loadText, h]

end

/-- The tree of a file, with the notes of its making. -/
def loadFile (limits : Limits) (d : Disk) (path : String) (notes : Notes := {}) : Except LoadError Program × Notes :=
  match d.readText path with
  | .ok text => loadText limits text notes
  | .error .impossible => (.error .impossiblePath, notes)
  | .error fault => (.error (.rejected (.unreadable path fault)), notes)

end TaintFlow.Syntax
