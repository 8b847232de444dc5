import SmallLang.Bytes

/-!
The help text of the command.
-/

namespace SmallLang.Command

def helpLines : List String := [
  "minilang - statically typed toy language interpreter",
  "",
  "Usage:",
  "  minilang [options] <source>",
  "",
  "Arguments:",
  "  source        .mini ファイル、または .mini ファイルを含むディレクトリ",
  "                ディレクトリを指定した場合、すべての .mini ファイルを1つのプログラムとして扱う",
  "                省略した場合は標準入力からソースを読み込む",
  "",
  "Options:",
  "  -m, --mode <mode>           check（型検査のみ）, run（型検査後に実行）, interpret（型検査なしで実行）（デフォルト: run）",
  "  --scope <strategy>          flat（シャドーイング禁止）, chained（シャドーイング許可）（デフォルト: chained）",
  "  --operators <rules>         strict（&& と || は bool のみ）, overload（数値のビット演算も許可）（デフォルト: strict）",
  "  --encoding <name>           auto, utf-8, shift-jis（デフォルト: auto）",
  "  -l, --log-level <level>     ログレベル: debug, info, warn, error（デフォルト: info）",
  "  -c, --config <file>         YAML設定ファイル",
  "  -h, --help                  このヘルプを表示",
  "",
  "Environment Variables:",
  "  MINILANG_MODE=<mode>        実行モード",
  "  MINILANG_SCOPE=<strategy>   スコープ戦略",
  "  MINILANG_OPERATORS=<rules>  演算子規則",
  "  MINILANG_ENCODING=<name>    文字コード",
  "  MINILANG_CONFIG=<file>      YAML設定ファイル",
  "  LOG_LEVEL=<level>           ログレベル",
  "",
  "Config File (YAML):",
  "  source: main.mini",
  "  mode: run",
  "  scope: flat",
  "  operators: strict",
  "  encoding: auto",
  "  log_level: info",
  "",
  "Examples:",
  "  minilang hello.mini                 型検査して実行",
  "  minilang -m check hello.mini        型検査のみ",
  "  minilang --scope flat ./project     ディレクトリ内の全ファイルを flat スコープで実行",
  "  minilang --log-level debug x.mini   デバッグログを有効化"]

def help : Bytes := helpLines.flatMap fun line => utf8 line ++ utf8 "\n"

end SmallLang.Command
