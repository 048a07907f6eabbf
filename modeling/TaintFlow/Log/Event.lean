/-
  TaintFlow.Log.Event
  ───────────────────
  What the loader and the analysis report while they work: one constructor for each
  occasion, with its level and its wording.
-/
import TaintFlow.Text.Blank

namespace TaintFlow

/-- How important a log line is. -/
inductive Level where
  | debug
  | info
  | warning
  deriving DecidableEq, Repr

/-- The word for a level. -/
def Level.name : Level → String
  | .debug => "DEBUG"
  | .info => "INFO"
  | .warning => "WARNING"

/-- An occasion worth a log line. -/
inductive Event where
  /-- A node could not be recognised. -/
  | degraded (reason : String) (rawKind : Option String)
  /-- The analysis gave up on a detail. -/
  | fallback (reason : String) (detail : String)
  /-- A literal equals the literal that guards it. -/
  | guardedLiteral (value : String)
  /-- A tainted variable reached a sink. -/
  | taintedCall (name call pattern : String)
  /-- An entry point is printed as it is. -/
  | taintedOutput (entryPoint pattern : String)
  /-- A loop body no longer adds taint. -/
  | loopSettled (iterations : Nat)
  /-- The slice violates patterns. -/
  | vulnerable (patterns : List String)
  /-- The slice violates none. -/
  | safe
  /-- A catalog file was read. -/
  | catalogLoaded (path : String) (patterns : Nat)
  deriving DecidableEq, Repr

namespace Event

/-- The level of an occasion. -/
def level : Event → Level
  | .taintedCall .. | .taintedOutput .. => .warning
  | .vulnerable _ | .catalogLoaded .. => .info
  | _ => .debug

/-- The wording of an occasion. -/
def message : Event → String
  | .degraded reason rawKind =>
    let kind := rawKind.getD "None"
    s!"AST 节点降级为 unknown: {reason} ({kind})"
  | .fallback reason detail => Text.trimEnd s!"降级处理: {reason} {detail}"
  | .guardedLiteral value => s!"字面量 '{value}' 与条件守卫一致，按污染处理"
  | .taintedCall name call pattern => s!"污点变量 ${name} 未经净化流向 {call} ({pattern})"
  | .taintedOutput entryPoint pattern => s!"入口点 ${entryPoint} 未经净化直接输出 ({pattern})"
  | .loopSettled iterations => s!"循环在 {iterations} 次迭代后到达不动点"
  | .vulnerable patterns => "切片存在漏洞: " ++ Text.joinWith ", " patterns
  | .safe => "切片安全"
  | .catalogLoaded path patterns => s!"从 {path} 加载了 {patterns} 个漏洞模式"

end Event

end TaintFlow
