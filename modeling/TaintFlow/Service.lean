/-
  TaintFlow.Service
  ─────────────────
  The analysis as a service: what is answered to a request.

  There are three resources: a start page, the analysis of a tree, and the catalog; files that
  belong to pages would have addresses of their own, but there are none.  `Service.answer` is a
  function of the request alone, so requests do not disturb one another.
-/
import TaintFlow.Address
import TaintFlow.Analysis.Analyze
import TaintFlow.Html
import TaintFlow.Text.Capital
import TaintFlow.Text.Wide

namespace TaintFlow

/-! ## §1. Requests and responses. -/

/-- A request. -/
structure Request where
  method : String
  address : String
  contentType : String
  body : String
  deriving DecidableEq, Repr

/-- What a response carries. -/
inductive Payload where
  | nothing
  | data (d : Datum)
  | page (pieces : List Html.Piece)
  deriving Repr

/-- A response. -/
structure Response where
  status : Nat
  payload : Payload
  deriving Repr

/-- Why something is no request at all. -/
inductive RequestError where
  | badAddress (fault : Address.Fault)
  /-- The type of the body has a line break in it. -/
  | brokenLine
  deriving DecidableEq, Repr

/-- What a service works with. -/
structure Service where
  catalog : Catalog
  options : Options
  limits : Limits

namespace Service

/-! ## §2. Resources. -/

/-- The resources. -/
inductive Resource where
  | start
  | analysis
  | patterns
  /-- A file that belongs to a page. -/
  | asset
  deriving DecidableEq, Repr

/-- The paths of the resources. -/
def resources : List (String × Resource) :=
  [("/", .start), ("/api/analyze", .analysis), ("/api/patterns", .patterns)]

/-- The methods that a resource has. -/
def Resource.methods : Resource → List String
  | .analysis => ["POST", "OPTIONS"]
  | _ => ["GET", "HEAD", "OPTIONS"]

/-- What the paths of files that belong to pages start with. -/
def assetStart : String := "/static/"

/-- Is this the path of a file that belongs to a page? -/
def isAssetPath (path : String) : Bool :=
  Text.startsWith path assetStart &&
    match path.toList.drop assetStart.length with
    | [] => false
    | first :: rest => first != '/' && !rest.contains '\n'

/-- The resource with a path. -/
def resourceAt? (path : String) : Option Resource :=
  match Assoc.get? path resources with
  | some r => some r
  | none => if isAssetPath path then some .asset else none

/-- The path with one slash in front; an empty one stays as it is. -/
def resourcePath (path : String) : String :=
  if path = "" then "" else String.ofList ('/' :: path.toList.dropWhile (· = '/'))

/-- Every two slashes in a row become one. -/
def mergeSlashes : List Char → List Char
  | '/' :: '/' :: rest => '/' :: mergeSlashes rest
  | c :: rest => c :: mergeSlashes rest
  | [] => []

/-- Where a request leads. -/
inductive Route where
  | found (r : Resource)
  | moved
  /-- The resource does not keep connections open. -/
  | notLive
  | methodNotAllowed
  | unknown
  deriving DecidableEq, Repr

/-- Where a method and a path lead.  A path with doubled slashes is moved to the one without, and the
empty path to the start page. -/
def route (live : Bool) (method path : String) : Route :=
  let merged := String.ofList (mergeSlashes path.toList)
  if path = "" then (if !live && method ∈ Resource.start.methods then .moved else .unknown)
  else
    match resourceAt? path, resourceAt? merged with
    | some r, _ => if method ∉ r.methods then .methodNotAllowed else if live then .notLive else .found r
    | none, some r => if method ∉ r.methods then .methodNotAllowed else if live then .notLive else .moved
    | none, none => .unknown

/-! ## §3. The start page. -/

/-- The start page up to the names of the patterns. -/
def startHead : List String :=
  ["<!DOCTYPE html>",
   "<html lang=\"zh-CN\">",
   "<head>",
   "    <meta charset=\"UTF-8\">",
   "    <title>Slice-Analyzer - 切片污点分析</title>",
   "    <style>",
   "        body \x7b font-family: -apple-system, 'Segoe UI', Roboto, sans-serif; background: #1a1a2e; color: #fff; \x7d",
   "        .container \x7b max-width: 900px; margin: 0 auto; padding: 20px; \x7d",
   "        textarea \x7b width: 100%; height: 320px; background: #0f172a; color: #e2e8f0; font-family: monospace; \x7d",
   "        button \x7b margin-top: 10px; padding: 8px 20px; \x7d",
   "        pre \x7b background: #0f172a; padding: 12px; \x7d",
   "    </style>",
   "</head>",
   "<body>",
   "<div class=\"container\">",
   "    <h1>Slice-Analyzer</h1>",
   "    <p>已加载模式: "]

/-- The start page behind the names of the patterns. -/
def startFoot : List String :=
  ["</p>",
   "    <textarea id=\"ast\" placeholder='\x7b\"kind\": \"program\", \"children\": [...]\x7d'></textarea>",
   "    <button onclick=\"runAnalysis()\">分析</button>",
   "    <pre id=\"result\"></pre>",
   "</div>",
   "<script>",
   "    async function runAnalysis() \x7b",
   "        const result = document.getElementById('result');",
   "        let ast;",
   "        try \x7b",
   "            ast = JSON.parse(document.getElementById('ast').value);",
   "        \x7d catch (e) \x7b",
   "            result.textContent = 'AST 不是合法的 JSON: ' + e;",
   "            return;",
   "        \x7d",
   "        const resp = await fetch('/api/analyze', \x7b",
   "            method: 'POST',",
   "            headers: \x7b'Content-Type': 'application/json'\x7d,",
   "            body: JSON.stringify(\x7bast: ast\x7d)",
   "        \x7d);",
   "        result.textContent = JSON.stringify(await resp.json(), null, 2);",
   "    \x7d",
   "</script>",
   "</body>",
   "</html>"]

/-- The start page. -/
def startPage (s : Service) : List Html.Piece :=
  .markup (Text.joinWith "\n" startHead) ::
    Html.separated ", " (s.catalog.names.map fun n => [.text n]) ++ [.markup (Text.joinWith "\n" startFoot)]

/-! ## §4. The analysis. -/

/-- The type of a body without its parameters. -/
def mediaType (contentType : String) : String :=
  Text.lowercase (Text.trim (String.ofList (contentType.toList.takeWhile (· ≠ ';'))))

/-- Is a body of this type read as data? -/
def isDataType (contentType : String) : Bool :=
  let m := mediaType contentType
  m == "application/json" || (Text.startsWith m "application/" && Text.endsIn m "+json")

/-- What a body holds. -/
inductive Content where
  | nothing
  | tooDeep
  | data (d : Datum)
  deriving Repr

/-- The text of a body.  A byte order mark in front of it does not count. -/
def bodyText? (body : String) : Option String :=
  let bytes := Text.utf8Bytes body
  match body.toList with
  | '\ufeff' :: rest => some (String.ofList rest)
  | _ => (Text.decode? (.of bytes) bytes).map String.ofList

/-- What the body of a request holds. -/
def contentOf (limits : Limits) (r : Request) : Content :=
  if isDataType r.contentType then
    match (bodyText? r.body).map (Json.read limits.text) with
    | some (.ok d) => .data d
    | some (.error .tooDeep) => .tooDeep
    | _ => .nothing
  else .nothing

/-- A refusal with its reason. -/
def refused (error : String) : Response :=
  ⟨400, .data (.object [("success", .bool false), ("error", .text error)])⟩

/-- A failure without explanation. -/
def failure : Response := ⟨500, .nothing⟩

/-- A conclusion as an object, with the counts ordered by name. -/
def conclusionObject (c : Conclusion) : Datum :=
  let counts := c.diagnostics.toList.mergeSort fun a b => decide (a.1 ≤ b.1)
  .object
    [("vulnerable", .bool c.verdict.vulnerable),
     ("violated_patterns", .list (c.verdict.violatedPatterns.map .text)),
     ("sanitizers_applied", .list (c.verdict.sanitizersApplied.map .text)),
     ("diagnostics", .object (counts.map fun e => (e.1, .int e.2))),
     ("loop_iterations", .int c.verdict.loopIterations)]

/-- The catalog that a request asks for: its own, or the one of the service. -/
def catalogFor (s : Service) (d : Datum) : Except CatalogError Catalog :=
  match d.field "patterns" with
  | .null => .ok s.catalog
  | given => Catalog.ofDatum given

/-- The answer to a request for an analysis of the data in its body. -/
def analysisOf (s : Service) (d : Datum) : Response :=
  let ast := d.field "ast"
  if ast.isMap then
    match s.catalogFor d with
    | .error (.refused why) => refused why.message
    | .error _ => failure
    | .ok catalog =>
      match (analyze s.limits s.options catalog ast).1 with
      | .ok c => ⟨200, .data (.object [("success", .bool true), ("verdict", conclusionObject c)])⟩
      | .error .tooDeep => refused tooDeepMessage
      | .error (.load (.rejected why)) => refused why.message
      | .error (.load _) => failure
  else refused "请求体需要包含 ast 对象"

/-! ## §5. Answers. -/

/-- The answer of a resource. -/
def serve (s : Service) (r : Request) : Resource → Response
  | .start => ⟨200, .page s.startPage⟩
  | .asset => ⟨404, .nothing⟩
  | .patterns => ⟨200, .data (.object [("success", .bool true), ("patterns", s.catalog.toDatum)])⟩
  | .analysis =>
    match contentOf s.limits r with
    | .data d => s.analysisOf d
    | .nothing => s.analysisOf .null
    | .tooDeep => failure

/-- The answer to a request whose address leads somewhere. -/
def answerAt (s : Service) (r : Request) (there : Address.Destination) : Response :=
  let method := Text.capitals r.method
  match route there.live method (resourcePath there.path) with
  | .notLive => ⟨400, .nothing⟩
  | .unknown => ⟨404, .nothing⟩
  | .methodNotAllowed => ⟨405, .nothing⟩
  | .moved => ⟨308, .nothing⟩
  | .found resource =>
    if method = "OPTIONS" then ⟨200, .nothing⟩
    else
      let response := s.serve r resource
      if method = "HEAD" then { response with payload := .nothing } else response

/-- The answer to a request. -/
def answer (s : Service) (r : Request) : Except RequestError Response :=
  match Address.destination r.address with
  | .error fault => .error (.badAddress fault)
  | .ok there =>
    if r.contentType.toList.any fun c => c == '\n' || c == '\r' then .error .brokenLine
    else .ok (s.answerAt r there)

end Service

end TaintFlow
