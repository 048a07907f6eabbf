/-
  TaintFlow.Command.Banner
  ────────────────────────
  The picture that the program starts with.
-/
import TaintFlow.Terminal
import TaintFlow.Text.Blank

namespace TaintFlow.Command

/-- The name of the program in large letters. -/
def bannerPicture : List String :=
  ["  ____  _ _            _____     _       _   ",
   " / ___|| (_) ___ ___  |_   _|_ _(_)_ __ | |_ ",
   " \\___ \\| | |/ __/ _ \\   | |/ _` | | '_ \\| __|",
   "  ___) | | | (_|  __/   | | (_| | | | | | |_ ",
   " |____/|_|_|\\___\\___|   |_|\\__,_|_|_| |_|\\__|"]

/-- The banner. -/
def banner : String :=
  Text.joinWith "\n"
    (["", Colour.cyan.code] ++ bannerPicture ++
     [Colour.reset,
      Colour.yellow.paint "  Slice-Analyzer 程序切片污点分析工具",
      Colour.green.paint "  入口点 -> 净化函数 -> 敏感汇聚点",
      Colour.white.paint "  ============================================",
      ""])

end TaintFlow.Command
