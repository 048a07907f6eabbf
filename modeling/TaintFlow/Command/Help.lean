/-
  TaintFlow.Command.Help
  ──────────────────────
  The help on the command line.
-/
import TaintFlow.Text.Blank

namespace TaintFlow.Command

/-- The lines of the help: how the program is called, and what each argument is for. -/
def helpLines : List String :=
  ["usage: slice-analyzer [-h] [-p PATTERNS] [-c CONFIG] [-o OUTPUT]",
   "                      [-f \x7bhtml,json,txt,all\x7d] [--block-strategy \x7bfirst,all\x7d]",
   "                      [--legacy-narrowing] [--fail-on-vulnerable] [-v] [--web]",
   "                      [--port PORT]",
   "                      [target]",
   "",
   "Slice-Analyzer - 程序切片污点分析工具",
   "",
   "positional arguments:",
   "  target                要分析的切片文件（JSON AST）或目录",
   "",
   "options:",
   "  -h, --help            show this help message and exit",
   "  -p PATTERNS, --patterns PATTERNS",
   "                        漏洞模式文件（.txt 或 .yaml，默认使用 rules/patterns.txt）",
   "  -c CONFIG, --config CONFIG",
   "                        配置文件路径（默认: config.yaml）",
   "  -o OUTPUT, --output OUTPUT",
   "                        报告输出目录；省略时不写报告",
   "  -f \x7bhtml,json,txt,all\x7d, --format \x7bhtml,json,txt,all\x7d",
   "                        报告格式（默认: json）",
   "  --block-strategy \x7bfirst,all\x7d",
   "                        分支/循环体处理策略（覆盖配置文件）",
   "  --legacy-narrowing    入口点读取后在本次分析内收窄模式集合",
   "  --fail-on-vulnerable  发现漏洞时以退出码 2 结束",
   "  -v, --verbose         显示详细输出",
   "  --web                 启动Web接口",
   "  --port PORT           Web服务端口（默认: 5000）"]

/-- The help. -/
def help : String := Text.joinWith "\n" helpLines

end TaintFlow.Command
