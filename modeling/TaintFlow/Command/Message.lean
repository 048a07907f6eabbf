/-
  TaintFlow.Command.Message
  ─────────────────────────
  What the program says on its standard output.

  A message is kept as what it is about; `Message.text` has the words, the colour and the line
  breaks.
-/
import TaintFlow.Command.Banner
import TaintFlow.Command.Help
import TaintFlow.Files.Path
import TaintFlow.Pattern.Catalog
import TaintFlow.Scan

namespace TaintFlow.Command

/-! ## §1. Messages. -/

/-- A message of the program. -/
inductive Message where
  | banner
  | help
  | noTarget
  | targetMissing (target : String)
  | catalogFailed (why : CatalogRefusal)
  /-- The rule above the slices. -/
  | opening
  | sliceFailed (name error : String)
  | sliceVulnerable (name pattern : String)
  | sliceSafe (name : String)
  /-- The rule below the slices. -/
  | closing
  | sliceCount (n : Nat)
  | vulnerableCount (n : Nat)
  | safeCount (n : Nat)
  | reportSaved (path : String)
  deriving DecidableEq, Repr

/-- The rule around the slices. -/
def ruler : String := Colour.white.paint (String.ofList (List.replicate 60 '='))

/-- The words of a message. -/
def Message.words : Message → String
  | .banner => Command.banner
  | .help => Command.help
  | .noTarget => "\n" ++ Colour.red.paint "错误: 请指定要分析的切片路径"
  | .targetMissing target => Colour.red.paint s!"错误: 目标路径不存在: {target}"
  | .catalogFailed why => Colour.red.paint s!"错误: {why.message}"
  | .opening => "\n" ++ ruler
  | .sliceFailed name error => Colour.yellow.paint s!"[!] {name}: {error}"
  | .sliceVulnerable name pattern => Colour.red.paint s!"[-] {name}: Program is vulnerable to {pattern}"
  | .sliceSafe name => Colour.green.paint s!"[+] {name}: Program is safe"
  | .closing => ruler
  | .sliceCount n => s!"  切片数: {n}"
  | .vulnerableCount n => "  " ++ Colour.red.paint s!"存在漏洞: {n}"
  | .safeCount n => "  " ++ Colour.green.paint s!"安全: {n}"
  | .reportSaved path => "\n" ++ Colour.green.paint s!"[+] 报告已保存到: {path}"

/-- The text of a message, with the line break that ends it. -/
def Message.text (m : Message) : String := m.words ++ "\n"

/-- The text of messages that follow one another. -/
def transcript (ms : List Message) : String := String.join (ms.map Message.text)

/-! ## §2. Scans. -/

/-- What is said about a slice: why it failed, or which patterns it violates, each time it does, or that
it is safe. -/
def sliceMessages (r : SliceRecord) : List Message :=
  let name := Path.baseName r.file
  match r.error? with
  | some error => [.sliceFailed name error]
  | none =>
    if r.isVulnerable then r.verdict.violatedPatterns.map (.sliceVulnerable name) else [.sliceSafe name]

/-- What is said about a scan. -/
def scanMessages (s : Scan) : List Message :=
  .opening :: s.slices.flatMap sliceMessages ++
    [.closing, .sliceCount s.slices.length, .vulnerableCount s.vulnerableCount, .safeCount s.safeCount]

end TaintFlow.Command
