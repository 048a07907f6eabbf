/-
  TaintFlow.Pattern.Bundled
  ─────────────────────────
  The catalog files that come with the program.
-/
import TaintFlow.Files.Disk

namespace TaintFlow.Bundled

/-- A file of whole lines. -/
def ofLines (lines : List String) : String := Text.joinWith "\n" lines ++ "\n"

/-- The standard catalog in the text format. -/
def patternsText : String := ofLines
  ["SQL injection",
   "$_GET,$_POST,$_COOKIE,$_REQUEST,$HTTP_GET_VARS,$HTTP_POST_VARS,$HTTP_COOKIE_VARS,$HTTP_REQUEST_VARS",
   "mysql_escape_string,mysql_real_escape_string,mysql_real_escape_string",
   "mysql_query,mysql_unbuffered_query,mysql_db_query",
   "-",
   "SQL injection",
   "$_GET,$_POST,$_COOKIE,$_REQUEST,$HTTP_GET_VARS,$HTTP_POST_VARS,$HTTP_COOKIE_VARS,$HTTP_REQUEST_VARS",
   "mysqli_escape_string,mysqli_real_escape_string",
   "mysqli_query,mysqli_real_query,mysqli_master_query,mysqli_multi_query",
   "-",
   "SQL injection",
   "$_GET,$_POST,$_COOKIE,$_REQUEST,$HTTP_GET_VARS,$HTTP_POST_VARS,$HTTP_COOKIE_VARS,$HTTP_REQUEST_VARS",
   "mysqli_stmt_bind_param",
   "mysqli_stmt_execute,mysqli_execute",
   "-",
   "SQL injection",
   "$_GET,$_POST,$_COOKIE,$_REQUEST,$HTTP_GET_VARS,$HTTP_POST_VARS,$HTTP_COOKIE_VARS,$HTTP_REQUEST_VARS",
   "db2_escape_string",
   "db2_exec",
   "-",
   "SQL injection",
   "$_GET,$_POST,$_COOKIE,$_REQUEST,$HTTP_GET_VARS,$HTTP_POST_VARS,$HTTP_COOKIE_VARS,$HTTP_REQUEST_VARS",
   "pg_escape_string,pg_escape_bytea",
   "pg_query,pg_send_query",
   "-",
   "Cross site scripting",
   "$_GET,$_POST,$_COOKIE,$_REQUEST,$HTTP_GET_VARS,$HTTP_POST_VARS,$HTTP_COOKIE_VARS,$HTTP_REQUEST_VARS,$_FILES,$_SERVERS",
   "htmlentities,htmlspecialchars,strip_tags,urlencode",
   "echo,print,printf,die,error,exit",
   "-",
   "File inclusion",
   "$_GET,$_POST,$_COOKIE,$_REQUEST,$HTTP_GET_VARS,$HTTP_POST_VARS,$HTTP_COOKIE_VARS,$HTTP_REQUEST_VARS",
   "basename",
   "include,require,include_once,require_once",
   "-",
   "Command injection",
   "$_GET,$_POST,$_COOKIE,$_REQUEST,$HTTP_GET_VARS,$HTTP_POST_VARS,$HTTP_COOKIE_VARS,$HTTP_REQUEST_VARS",
   "escapeshellarg,escapeshellcmd",
   "passthru,system,shell_exec,exec,pcntl_exec,popen",
   "-"]

/-- A smaller catalog as a document. -/
def patternsYaml : String := ofLines
  ["# 与 patterns.txt 等价的 YAML 版本（节选）",
   "patterns:",
   "  - name: SQL injection",
   "    entry_points: [$_GET, $_POST, $_COOKIE, $_REQUEST]",
   "    sanitizers: [mysql_escape_string, mysql_real_escape_string]",
   "    sinks: [mysql_query, mysql_unbuffered_query, mysql_db_query]",
   "  - name: Cross site scripting",
   "    entry_points: [$_GET, $_POST, $_COOKIE, $_REQUEST, $_FILES, $_SERVERS]",
   "    sanitizers: [htmlentities, htmlspecialchars, strip_tags, urlencode]",
   "    sinks: [echo, print, printf, die, error, exit]",
   "  - name: Command injection",
   "    entry_points: \"$_GET,$_POST,$_COOKIE,$_REQUEST\"",
   "    sanitizers: \"escapeshellarg,escapeshellcmd\"",
   "    sinks: \"passthru,system,shell_exec,exec,pcntl_exec,popen\""]

/-- The directory of the catalog files below the directory of the program. -/
def directory (home : String) : String := home ++ "/core/rules"

/-- The path of the standard catalog. -/
def standardPath (home : String) : String := directory home ++ "/patterns.txt"

/-- The names and the contents of the catalog files. -/
def files : List (String × String) := [("patterns.txt", patternsText), ("patterns.yaml", patternsYaml)]

/-- The disk with the catalog files in their place. -/
def install (home : String) (d : Disk) : Disk :=
  let place := Disk.startOf home d.current ++ Path.parts (directory home)
  files.foldl (fun d f => d.put (place ++ [f.1]) (.file (Text.utf8Bytes f.2))) d

end TaintFlow.Bundled
