/-
  TaintFlow.Proofs.Exporting
  ──────────────────────────
  **Catalogs that are exported load back.**

  A catalog is written as records with their names in order, and read back through the checks that
  any record has to pass.  A pattern that values have made passes them and comes back as it was, if
  only it has a name:

    • `SameFields` — records with the same values under the same keys, in whatever order,
    • `patternOfRecord_of_sameFields` — the record of such a pattern gives the pattern,
    • `ofRecords_of_exported` — the records of a catalog give the catalog,
    • `Service.analysisOf_of_exported` — an analysis with the exported patterns is one with those of
      the service,
    • `Service.contentOf_of_read`, `Service.analysisOf_of_conclusion` — what the body of a request holds, and
      the answer to data without patterns,
    • `exported_catalog_loads_back` — the way out and back, by records and by requests.
-/
import Mathlib.Data.List.Forall2
import TaintFlow.Proofs.Loading
import TaintFlow.Proofs.Merging
import TaintFlow.Service

namespace TaintFlow

open Text (IsName)

/-! ## §1. Records. -/

/-- The records have the same values under the same keys. -/
def SameFields (a b : Datum) : Prop := ∀ key, a.get? key = b.get? key

theorem SameFields.field_eq {a b : Datum} (h : SameFields a b) (key : String) : b.field key = a.field key := by
  unfold Datum.field
  rw [h key]

/-- Entries with distinct keys may stand in any order. -/
theorem sameFields_of_perm {entries others : List (Scalar × Datum)} (h : entries.Perm others)
    (hkeys : (Assoc.keys entries).Nodup) : SameFields (.map entries) (.map others) := by
  have hkeys' : (Assoc.keys others).Nodup := (h.map Prod.fst).nodup_iff.1 hkeys
  intro key
  apply Option.ext
  intro value
  constructor
  · intro hvalue
    exact Assoc.get?_of_mem hkeys' (h.mem_iff.1 (Assoc.mem_of_get? hvalue))
  · intro hvalue
    exact Assoc.get?_of_mem hkeys (h.mem_iff.2 (Assoc.mem_of_get? hvalue))

/-- The set of the members of a set is the set. -/
theorem ofList_toList (names : NameSet) : OrderedSet.ofList names.toList = names :=
  OrderedSet.ext fun _ => OrderedSet.mem_ofList

namespace Catalog

/-- Texts that are names are listed as they are. -/
theorem splitNames_list {names : List String} (h : ∀ n ∈ names, IsName n) :
    splitNames? (.list (names.map .text)) = some names := by
  have htexts : (names.map Datum.text).map Datum.display = names := by
    rw [List.map_map]
    exact List.map_id names
  show some (cleanNames ((names.map Datum.text).map Datum.display)) = some names
  rw [htexts, cleanNames_of_isName h]

theorem isNameList_list (names : List String) : isNameList (.list (names.map .text)) = true := by
  show (names.map Datum.text).all (fun d => d.text?.isSome) = true
  rw [List.all_map]
  exact List.all_eq_true.2 fun _ _ => rfl

/-- The names in a field of the record of a pattern. -/
theorem fieldNames_of_field {record : Datum} {field : String} {names : NameSet}
    (hfield : record.field field = .list (names.toList.map .text)) (hnames : ∀ n ∈ names, IsName n) :
    fieldNames {} (({} : Store).look record) field = names.toList := by
  unfold fieldNames
  rw [field_look_empty, hfield]
  show (splitNames? (.list (names.toList.map .text))).getD [] = _
  rw [splitNames_list hnames]
  rfl

/-- **The record of a pattern with names in it gives the pattern.** -/
theorem patternOfRecord_of_sameFields {p : Pattern} (hname : IsName p.name) (hlists : p.ListsNames) {record : Datum}
    (hrecord : SameFields p.toDatum record) (position : Nat) : patternOfRecord {} position record = .ok p := by
  have hn : record.field "name" = .text p.name := hrecord.field_eq "name"
  have he : record.field "entry_points" = .list (p.entryPoints.toList.map .text) := hrecord.field_eq "entry_points"
  have hs : record.field "sanitizers" = .list (p.sanitizers.toList.map .text) := hrecord.field_eq "sanitizers"
  have hk : record.field "sinks" = .list (p.sinks.toList.map .text) := hrecord.field_eq "sinks"
  have hchecked : nameListFields.find? (fun f => !isNameList (({} : Store).look ((({} : Store).look record).field f)))
      = none := by
    rw [List.find?_eq_none]
    intro field hfield
    have hlist : ∃ names : List String, record.field field = .list (names.map .text) := by
      rcases List.mem_cons.1 hfield with rfl | hfield
      · exact ⟨_, he⟩
      rcases List.mem_cons.1 hfield with rfl | hfield
      · exact ⟨_, hs⟩
      · rw [List.mem_singleton.1 hfield]
        exact ⟨_, hk⟩
    obtain ⟨names, hnames⟩ := hlist
    rw [field_look_empty, hnames]
    show ¬ (!isNameList (.list (names.map .text))) = true
    rw [isNameList_list]
    exact Bool.false_ne_true
  have htruth : (({} : Store).look ((({} : Store).look record).field "name")).truth = true := by
    rw [field_look_empty, hn]
    exact bne_iff_ne.2 hname.ne_empty
  have hshown : ({} : Store).display? ((({} : Store).look record).field "name") = some p.name := by
    rw [field_look_empty, hn]
    rfl
  unfold patternOfRecord
  simp only [htruth, if_true, hchecked, hshown, fieldNames_of_field he hlists.entryPoints,
    fieldNames_of_field hs hlists.sanitizers, fieldNames_of_field hk hlists.sinks]
  unfold Pattern.build
  rw [Text.trim_of_isTrimmed hname.trimmed, ofList_toList, ofList_toList, ofList_toList]

/-- The records of patterns with names in them give the patterns, in order. -/
theorem patternsOfRecords_of_sameFields {patterns : List Pattern} {records : List Datum}
    (hpatterns : ∀ p ∈ patterns, IsName p.name ∧ p.ListsNames)
    (hrecords : List.Forall₂ SameFields (patterns.map Pattern.toDatum) records) (position : Nat) :
    patternsOfRecords {} position records = .ok patterns := by
  induction patterns generalizing records position with
  | nil =>
    cases hrecords
    rfl
  | cons p rest ih =>
    obtain ⟨hp, hrest⟩ := List.forall_mem_cons.1 hpatterns
    cases hrecords with
    | cons hfirst hothers =>
      rw [patternsOfRecords, patternOfRecord_of_sameFields hp.1 hp.2 hfirst, ih hrest hothers]
      rfl

/-- **Values make every pattern of the catalog.** -/
def Built (c : Catalog) : Prop := ∀ p ∈ c.patterns, p.Built

theorem built_of_ofText {content : String} {c : Catalog} (h : ofText content = .ok c) : c.Built :=
  fun p hp => (loads_of_ofText h p hp).built

theorem built_of_ofYaml {content : String} {c : Catalog} (h : ofYaml content = .ok c) : c.Built := by
  obtain ⟨d, items, -, -, hcomes⟩ := comesOf_of_ofYaml h
  exact built_of_comesOf hcomes

theorem built_of_ofRecords {records : Datum} {c : Catalog} (h : ofRecords records = .ok c) : c.Built := by
  obtain ⟨items, -, hcomes⟩ := comesOf_of_ofRecords h
  exact built_of_comesOf hcomes

/-- **The records of a catalog give the catalog**, whatever the order of their keys. -/
theorem ofRecords_of_exported {c : Catalog} (hbuilt : c.Built) (hnamed : ∀ p ∈ c.patterns, p.name ≠ "")
    {records : List Datum} (hrecords : List.Forall₂ SameFields (c.patterns.map Pattern.toDatum) records) :
    ofRecords (.list records) = .ok c := by
  have hpatterns : ∀ p ∈ c.patterns, IsName p.name ∧ p.ListsNames := by
    intro p hp
    exact ⟨⟨hnamed p hp, (hbuilt p hp).isTrimmed_name⟩, (hbuilt p hp).listsNames⟩
  rw [ofRecords, patternsOfRecords_of_sameFields hpatterns hrecords]
  rfl

end Catalog

/-! ## §2. Requests. -/

/-- The request goes to a path with a method, and its header is in order. -/
structure Request.Goes (r : Request) (method path : String) : Prop where
  method_eq : r.method = method
  address_eq : r.address = path
  oneLine : (r.contentType.toList.any fun c => c == '\n' || c == '\r') = false

/-- The request posts data for an analysis, which are not nested too deeply to be read. -/
structure Request.Posts (r : Request) (limits : Limits) (d : Datum) : Prop extends r.Goes "POST" "/api/analyze" where
  content_eq : Service.contentOf limits r = .data d

namespace Service

/-- Where the address of a request leads to and the method that it has there decide who answers. -/
theorem answer_of_goes {s : Service} {r : Request} {method path : String} (h : r.Goes method path) {resource : Resource}
    (hmethod : Text.capitals method = method) (hplain : method ≠ "OPTIONS" ∧ method ≠ "HEAD")
    (hdestination : Address.destination path = .ok ⟨false, path⟩)
    (hroute : route false method (resourcePath path) = .found resource) : s.answer r = .ok (s.serve r resource) := by
  unfold answer
  rw [h.address_eq, hdestination]
  simp only [h.oneLine, Bool.false_eq_true, if_false]
  unfold answerAt
  simp only [h.method_eq, hmethod, hroute, hplain.1, hplain.2, if_false]

theorem answer_patterns (s : Service) {r : Request} (h : r.Goes "GET" "/api/patterns") :
    s.answer r = .ok ⟨200, .data (.object [("success", .bool true), ("patterns", s.catalog.toDatum)])⟩ := by
  have hdestination : Address.destination "/api/patterns" = .ok ⟨false, "/api/patterns"⟩ := by decide +kernel
  have hroute : route false "GET" (resourcePath "/api/patterns") = .found .patterns := by decide
  exact answer_of_goes h (by decide) (by decide) hdestination hroute

theorem answer_analysis (s : Service) {r : Request} {d : Datum} (h : r.Posts s.limits d) :
    s.answer r = .ok (s.analysisOf d) := by
  have hdestination : Address.destination "/api/analyze" = .ok ⟨false, "/api/analyze"⟩ := by decide +kernel
  have hroute : route false "POST" (resourcePath "/api/analyze") = .found .analysis := by decide
  have hserved : s.serve r .analysis = s.analysisOf d := by
    unfold serve
    rw [h.content_eq]
  rw [← hserved]
  exact answer_of_goes h.toGoes (by decide) (by decide) hdestination hroute

/-- The body of a request spells its characters and does not start with a byte order mark. -/
theorem bodyText?_of_decode {body : String} {cs : List Char} (hbody : body = String.ofList cs)
    (hmark : cs.head? ≠ some '\ufeff')
    (hdecode : Text.decode? (.of (Text.utf8Bytes body)) (Text.utf8Bytes body) = some cs) :
    bodyText? body = some body := by
  unfold bodyText?
  dsimp only
  split
  · rename_i rest heq
    rw [hbody, String.toList_ofList] at heq
    exact absurd (congrArg List.head? heq) hmark
  · rw [hdecode, hbody, Option.map_some]

/-- What the body of a request holds, by its type, its characters and the data that they spell. -/
theorem contentOf_of_read {limits : Limits} {r : Request} {cs : List Char} {d : Datum}
    (hbody : r.body = String.ofList cs) (htype : isDataType r.contentType = true) (hmark : cs.head? ≠ some '\ufeff')
    (hdecode : Text.decode? (.of (Text.utf8Bytes r.body)) (Text.utf8Bytes r.body) = some cs)
    (hread : Json.readChars limits.text cs = .ok d) : contentOf limits r = .data d := by
  have hdatum : Json.read limits.text r.body = .ok d := by
    unfold Json.read
    rw [hbody, String.toList_ofList, hread]
  unfold contentOf
  rw [if_pos htype, bodyText?_of_decode hbody hmark hdecode, Option.map_some, hdatum]

/-- The answer to data without patterns, by what the analysis of the tree in them concludes. -/
theorem analysisOf_of_conclusion {s : Service} {d : Datum} {found : Conclusion} (hast : (d.field "ast").isMap = true)
    (hpatterns : d.field "patterns" = .null)
    (hfound : (analyze s.limits s.options s.catalog (d.field "ast")).1 = .ok found) :
    s.analysisOf d = ⟨200, .data (.object [("success", .bool true), ("verdict", conclusionObject found)])⟩ := by
  have hcatalog : s.catalogFor d = .ok s.catalog := by
    unfold catalogFor
    rw [hpatterns]
  unfold analysisOf
  dsimp only
  rw [if_pos hast, hcatalog]
  dsimp only
  rw [hfound]

/-- **An analysis with the exported patterns is one with those of the service.** -/
theorem analysisOf_of_exported {s : Service} (hbuilt : s.catalog.Built) (hnamed : ∀ p ∈ s.catalog.patterns, p.name ≠ "")
    {plain posted : Datum} {records : List Datum}
    (hrecords : List.Forall₂ SameFields (s.catalog.patterns.map Pattern.toDatum) records)
    (hplain : plain.field "patterns" = .null) (hposted : posted.field "patterns" = .list records)
    (hast : posted.field "ast" = plain.field "ast") : s.analysisOf posted = s.analysisOf plain := by
  have hcatalog : s.catalogFor posted = s.catalogFor plain := by
    unfold catalogFor
    rw [hplain, hposted]
    exact Catalog.ofRecords_of_exported hbuilt hnamed hrecords
  unfold analysisOf
  rw [hast, hcatalog]

end Service

/-! ## §3. The way out and back. -/

namespace Catalog

/-- **Catalogs that are exported load back.**  Values make every pattern of a catalog that was loaded.  Where they do and
every pattern has a name, the records of the catalog give the catalog, and so do they as patterns of a request.  What
the service shows of its catalog, posted along with a tree, is answered as the tree alone is. -/
theorem exported_catalog_loads_back (c : Catalog) :
    ((∃ content, ofText content = .ok c ∨ ofYaml content = .ok c) ∨ (∃ records, ofRecords records = .ok c) → c.Built) ∧
    (c.Built → (∀ p ∈ c.patterns, p.name ≠ "") →
      ofRecords c.toDatum = .ok c ∧ ofDatum c.toDatum = .ok c ∧
      ∀ (o : Options) (limits : Limits), ∃ exported,
        (∀ r : Request, r.Goes "GET" "/api/patterns" →
          ∃ shown, Service.answer ⟨c, o, limits⟩ r = .ok ⟨200, .data shown⟩ ∧
            shown.field "patterns" = .list exported) ∧
        ∀ (plain posted : Request) (d d' : Datum) (given : List Datum), plain.Posts limits d → posted.Posts limits d' →
          d.field "patterns" = .null → d'.field "patterns" = .list given → List.Forall₂ SameFields exported given →
          d'.field "ast" = d.field "ast" →
          Service.answer ⟨c, o, limits⟩ posted = Service.answer ⟨c, o, limits⟩ plain) := by
  constructor
  · rintro (⟨content, htext | hyaml⟩ | ⟨records, hrecords⟩)
    · exact built_of_ofText htext
    · exact built_of_ofYaml hyaml
    · exact built_of_ofRecords hrecords
  intro hbuilt hnamed
  have hback : ofRecords c.toDatum = .ok c :=
    ofRecords_of_exported hbuilt hnamed (List.forall₂_same.2 fun _ _ _ => rfl)
  refine ⟨hback, hback, fun o limits => ⟨c.patterns.map Pattern.toDatum, ?_, ?_⟩⟩
  · intro r hr
    exact ⟨_, Service.answer_patterns ⟨c, o, limits⟩ hr, rfl⟩
  · intro plain posted d d' given hplain hposted hnone hgiven hsame hast
    let s : Service := ⟨c, o, limits⟩
    rw [s.answer_analysis hplain, s.answer_analysis hposted]
    exact congrArg Except.ok (Service.analysisOf_of_exported hbuilt hnamed hsame hnone hgiven hast)

/-- Two patterns of one name, with a comma and a blank inside of the name of a sink. -/
def commaCatalog : Catalog := ⟨[⟨"S", ∅, ∅, .ofList ["a, b"]⟩, ⟨"S", .ofList ["$c"], ∅, .ofList ["echo"]⟩]⟩

/-- The records of the catalog as they may come back, each with its keys in another order. -/
def commaRecords : List Datum :=
  [.object [("entry_points", .list []), ("name", .text "S"), ("sanitizers", .list []), ("sinks", .list [.text "a, b"])],
   .object [("sinks", .list [.text "echo"]), ("sanitizers", .list []), ("entry_points", .list [.text "$c"]),
     ("name", .text "S")]]

/-- A tree that prints what it reads. -/
def printedInput : Datum :=
  .object [("children", .list [.object [("kind", .text "echo"), ("arguments", .list
    [.object [("kind", .text "offsetlookup"), ("what", .object [("name", .text "c")])]])]])]

/-- A request for the analysis of that tree. -/
def printRequest : Request :=
  ⟨"POST", "/api/analyze", "application/json",
    "\x7b\"ast\":\x7b\"children\":[\x7b\"kind\":\"echo\",\"arguments\":[
      \x7b\"kind\":\"offsetlookup\",\"what\":\x7b\"name\":\"c\"\x7d\x7d]\x7d]\x7d\x7d"⟩

/-- The same request with the records of the catalog. -/
def printRequestWithRecords : Request :=
  ⟨"POST", "/api/analyze", "application/json",
    "\x7b\"ast\":\x7b\"children\":[\x7b\"kind\":\"echo\",\"arguments\":[
      \x7b\"kind\":\"offsetlookup\",\"what\":\x7b\"name\":\"c\"\x7d\x7d]\x7d]\x7d,\"patterns\":[
      \x7b\"entry_points\":[],\"name\":\"S\",\"sanitizers\":[],\"sinks\":[\"a, b\"]\x7d,
      \x7b\"sinks\":[\"echo\"],\"sanitizers\":[],\"entry_points\":[\"$c\"],\"name\":\"S\"\x7d]\x7d"⟩

theorem posts_printRequest : printRequest.Posts .standard (.object [("ast", printedInput)]) where
  method_eq := rfl
  address_eq := rfl
  oneLine := by decide
  content_eq := Service.contentOf_of_read (by rfl) (by decide) (by decide +kernel) (by decide +kernel) (by cbv)

set_option maxRecDepth 4000 in
theorem posts_printRequestWithRecords :
    printRequestWithRecords.Posts .standard (.object [("ast", printedInput), ("patterns", .list commaRecords)]) where
  method_eq := rfl
  address_eq := rfl
  oneLine := by decide
  content_eq := Service.contentOf_of_read (by rfl) (by decide) (by decide +kernel) (by decide +kernel) (by cbv)

theorem built_commaCatalog : commaCatalog.Built := by
  intro p hp
  rcases List.mem_cons.1 hp with rfl | hp
  · exact ⟨.text " S", .null, .text " ,", .list [.text "a, b "], rfl⟩
  · rw [List.mem_singleton.1 hp]
    exact ⟨.text "S", .text "$c, $c", .null, .text "echo", rfl⟩

theorem sameFields_commaRecords : List.Forall₂ SameFields (commaCatalog.patterns.map Pattern.toDatum) commaRecords := by
  refine .cons (sameFields_of_perm (.swap _ _ _) (by decide)) (.cons (sameFields_of_perm ?_ (by decide)) .nil)
  exact (List.reverse_perm _).symm

/-- With the exported records and without them the service finds the one violation. -/
theorem commaCatalog_loads_back :
    let s : Service := ⟨commaCatalog, {}, .standard⟩
    let found : Conclusion := ⟨{ vulnerable := true, violatedPatterns := ["S"] }, ∅⟩
    commaCatalog.Built ∧ (∀ p ∈ commaCatalog.patterns, p.name ≠ "") ∧
    ofRecords commaCatalog.toDatum = .ok commaCatalog ∧ ofDatum commaCatalog.toDatum = .ok commaCatalog ∧
    s.answer printRequestWithRecords = s.answer printRequest ∧
    s.answer printRequestWithRecords
      = .ok ⟨200, .data (.object [("success", .bool true), ("verdict", Service.conclusionObject found)])⟩ := by
  intro s found
  have hnamed : ∀ p ∈ commaCatalog.patterns, p.name ≠ "" := by decide
  obtain ⟨hrecords, hdatum, hservice⟩ := (exported_catalog_loads_back commaCatalog).2 built_commaCatalog hnamed
  obtain ⟨exported, hshown, hanswer⟩ := hservice {} .standard
  have hget : Request.Goes ⟨"GET", "/api/patterns", "", ""⟩ "GET" "/api/patterns" := ⟨rfl, rfl, rfl⟩
  obtain ⟨shown, hresponse, hexported⟩ := hshown _ hget
  rw [Service.answer_patterns _ hget] at hresponse
  cases hresponse
  cases hexported
  have hsame : s.answer printRequestWithRecords = s.answer printRequest :=
    hanswer _ _ _ _ _ posts_printRequest posts_printRequestWithRecords rfl rfl sameFields_commaRecords rfl
  have hverdict : (analyze .standard {} commaCatalog printedInput).1 = .ok found := by decide +kernel
  have hfound : s.analysisOf (.object [("ast", printedInput)])
      = ⟨200, .data (.object [("success", .bool true), ("verdict", Service.conclusionObject found)])⟩ :=
    Service.analysisOf_of_conclusion rfl rfl hverdict
  rw [← hfound, ← s.answer_analysis posts_printRequest]
  exact ⟨built_commaCatalog, hnamed, hrecords, hdatum, hsame, hsame⟩

end Catalog

end TaintFlow
