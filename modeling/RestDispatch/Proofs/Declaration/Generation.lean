import RestDispatch.Declaration.Meaning
import RestDispatch.Declaration.Printer
import RestDispatch.Proofs.Declaration.Acceptance
import RestDispatch.Proofs.Declaration.Standard
import RestDispatch.Proofs.Schema.Construction

/-!
# What is generated for a declaration

A declaration states what the URL of a route is, which slots it has and what its response is.
`UrlDeclared`, `SlotGenerated` and `ResponseGenerated` say this in terms of the declaration itself,
with the texts and the schema entry that belong to it, apart from how the implementation is made;
`derive_generates` says that every declaration that is accepted gives those.
-/

namespace RestDispatch.Declaration

variable {τ : Type} [ParamTypes τ]

/-! ### What the parts of a declaration state -/

/-- The URL that an expression declares, with the types that are declared for the path parameters:
a string is the URL itself, a closure without parameters or a function computes it, and a closure
over a reference or a function of declared path parameters builds it from them. -/
inductive UrlDeclared (e : Expr) : List Ty → UrlForm → Prop
  | literal {l : StringLiteral} (h : e.form = .text l) : UrlDeclared e [] (.literal l)
  | constant (h : e.form = .closure []) : UrlDeclared e [] (.computed e)
  | function (h : e.form = .path) : UrlDeclared e [] (.computed e)
  | reference {marks : List Token} {t : Ty} (h : e.form = .closure [some (.reference marks t)]) :
      UrlDeclared e [] (.builder e t)
  | functionOf {t : Ty} (h : e.form = .path) (ht : ∀ u, ¬ t.IsOptionOf u) :
      UrlDeclared e [t] (.builder e t)
  | option {t u : Ty} {marks : List Token} (h : e.form = .closure [some t])
      (ht : t.IsOptionOf (.reference marks u)) : UrlDeclared e [] (.optionalBuilder e u)
  | functionOfOption {t u : Ty} (h : e.form = .path) (ht : t.IsOptionOf u) :
      UrlDeclared e [t] (.optionalBuilder e u)

/-- The path parameters of a route, with the rule that goes with them. -/
def ruleOf (r : Route τ) : (p : PathParams τ) × UrlRule p := ⟨r.path, r.rule⟩

/-- What is generated for a URL: the texts of the marker of the path parameters and of the rule that
has this marker, the path parameters and the rule of the route, and an entry of the schema that asks
for these parameters and resolves the URL from them. -/
inductive UrlGenerated (m : Meaning τ) (x : Implementation) (entry : RouteEntry τ) : UrlForm → Prop
  | literal {l : StringLiteral}
      (marker : x.render.pathParams = ": : routekit : : Forbidden")
      (rule : x.render.url = String.intercalate " "
        (["\x7b", ":", ":", "routekit", ":", ":", "UrlRule", ":", ":", "literal", "("] ++
          l.token.texts ++ [")", "\x7d"]))
      (route : ruleOf (x.route m) = ⟨.forbidden, .literal l.value⟩)
      (kind : entry.path = .forbidden)
      (fixed : entry.literalUrl = some l.value)
      (resolve : entry.resolve none = .ok l.value)
      (foreign : ∀ v, entry.resolve (some v) = .error (.pathParamsMismatch entry.name.text)) :
      UrlGenerated m x entry (.literal l)
  | computed {e : Expr}
      (marker : x.render.pathParams = ": : routekit : : Forbidden")
      (rule : x.render.url = String.intercalate " "
        (["\x7b", ":", ":", "routekit", ":", ":", "UrlRule", ":", ":", "computed", "("] ++
          Token.textsOfList e.tokens ++ [")", "\x7d"]))
      (route : ruleOf (x.route m) = ⟨.forbidden, .computed (m.computed e)⟩)
      (kind : entry.path = .forbidden)
      (fixed : entry.literalUrl = none)
      (resolve : entry.resolve none = .ok (m.computed e ()))
      (foreign : ∀ v, entry.resolve (some v) = .error (.pathParamsMismatch entry.name.text)) :
      UrlGenerated m x entry (.computed e)
  | builder {e : Expr} {t : Ty}
      (marker : x.render.pathParams = String.intercalate " "
        ([":", ":", "routekit", ":", ":", "Required", "<"] ++ Token.textsOfList t.tokens ++ [">"]))
      (rule : x.render.url = String.intercalate " "
        (["\x7b", ":", ":", "routekit", ":", ":", "UrlRule", ":", ":", "builder", "("] ++
          Token.textsOfList e.tokens ++ [")", "\x7d"]))
      (route : ruleOf (x.route m) = ⟨.required (m.params t), .builder (m.builder e t)⟩)
      (kind : entry.path = .required)
      (fixed : entry.literalUrl = none)
      (missing : entry.resolve none = .error (.missingPathParams entry.name.text))
      (resolve : ∀ v, entry.resolve (some ⟨m.params t, v⟩) = .ok (m.builder e t v))
      (foreign : ∀ v, v.type ≠ m.params t →
        entry.resolve (some v) = .error (.pathParamsMismatch entry.name.text)) :
      UrlGenerated m x entry (.builder e t)
  | optionalBuilder {e : Expr} {t : Ty}
      (marker : x.render.pathParams = String.intercalate " "
        ([":", ":", "routekit", ":", ":", "Optional", "<"] ++ Token.textsOfList t.tokens ++ [">"]))
      (rule : x.render.url = String.intercalate " "
        (["\x7b", ":", ":", "routekit", ":", ":", "UrlRule", ":", ":", "optional_builder", "("] ++
          Token.textsOfList e.tokens ++ [")", "\x7d"]))
      (route : ruleOf (x.route m) =
        ⟨.optional (m.params t), .optionalBuilder (m.optionalBuilder e t)⟩)
      (kind : entry.path = .optional)
      (fixed : entry.literalUrl = none)
      (missing : entry.resolve none = .ok (m.optionalBuilder e t none))
      (resolve : ∀ v, entry.resolve (some ⟨m.params t, v⟩) = .ok (m.optionalBuilder e t (some v)))
      (foreign : ∀ v, v.type ≠ m.params t →
        entry.resolve (some v) = .error (.pathParamsMismatch entry.name.text)) :
      UrlGenerated m x entry (.optionalBuilder e t)

/-- What is generated for the types that are declared for a slot: the text of its marker, and the
presence that a schema asks for. -/
inductive SlotGenerated : List Ty → String → PresenceKind → Prop
  | undeclared : SlotGenerated [] ": : routekit : : Forbidden" .forbidden
  | unit : SlotGenerated [.unit] ": : routekit : : Forbidden" .forbidden
  | option {t u : Ty} (h : t.IsOptionOf u) :
      SlotGenerated [t] (String.intercalate " "
        ([":", ":", "routekit", ":", ":", "Optional", "<"] ++ Token.textsOfList u.tokens ++ [">"]))
        .optional
  | value {t : Ty} (hu : t ≠ .unit) (ho : ∀ u, ¬ t.IsOptionOf u) :
      SlotGenerated [t] (String.intercalate " "
        ([":", ":", "routekit", ":", ":", "Required", "<"] ++ Token.textsOfList t.tokens ++ [">"]))
        .required

/-- What is generated for a response: the text of its type, and the format of the route. -/
inductive ResponseGenerated (m : Meaning τ) :
    String → Option Ty → String → ResponseFormat → Prop
  | json {w : String} {t : Ty} (h : w ∈ ["json", "Json", "JSON"]) :
      ResponseGenerated m w (some t) (String.intercalate " "
        ([":", ":", "routekit", ":", ":", "response", ":", ":", "JsonFormat", "<"] ++
          Token.textsOfList t.tokens ++ [">"])) (.json (m.shape t))
  | yaml {w : String} {t : Ty} (h : w ∈ ["yaml", "Yaml", "YAML"]) :
      ResponseGenerated m w (some t) (String.intercalate " "
        ([":", ":", "routekit", ":", ":", "response", ":", ":", "YamlFormat", "<"] ++
          Token.textsOfList t.tokens ++ [">"])) (.yaml (m.shape t))
  | xml {w : String} {t : Ty} (h : w ∈ ["xml", "Xml", "XML"]) :
      ResponseGenerated m w (some t) (String.intercalate " "
        ([":", ":", "routekit", ":", ":", "response", ":", ":", "XmlFormat", "<"] ++
          Token.textsOfList t.tokens ++ [">"])) (.xml (m.shape t))
  | text {w : String} (h : w ∈ ["text", "plain_text", "PlainText"]) :
      ResponseGenerated m w none ": : routekit : : response : : PlainTextFormat" .text
  | html {w : String} (h : w ∈ ["html", "Html", "HTML"]) :
      ResponseGenerated m w none ": : routekit : : response : : HtmlFormat" .html
  | csv {w : String} (h : w ∈ ["csv", "Csv", "CSV"]) :
      ResponseGenerated m w none ": : routekit : : response : : CsvFormat" .csv
  | binary {w : String} (h : w ∈ ["binary", "Binary", "bytes"]) :
      ResponseGenerated m w none ": : routekit : : response : : BinaryFormat" .binary
  | empty {w : String} (h : w ∈ ["empty", "Empty", "none"]) :
      ResponseGenerated m w none ": : routekit : : response : : EmptyFormat" .empty

/-- What is generated for a method: the text of its name. -/
inductive MethodGenerated : String → String → Method → Prop
  | get {w : String} (h : w ∈ ["Get", "GET", "get"]) :
      MethodGenerated w ": : routekit : : RestMethod : : Get" .get
  | post {w : String} (h : w ∈ ["Post", "POST", "post"]) :
      MethodGenerated w ": : routekit : : RestMethod : : Post" .post
  | put {w : String} (h : w ∈ ["Put", "PUT", "put"]) :
      MethodGenerated w ": : routekit : : RestMethod : : Put" .put
  | patch {w : String} (h : w ∈ ["Patch", "PATCH", "patch"]) :
      MethodGenerated w ": : routekit : : RestMethod : : Patch" .patch
  | delete {w : String} (h : w ∈ ["Delete", "DELETE", "delete"]) :
      MethodGenerated w ": : routekit : : RestMethod : : Delete" .delete
  | head {w : String} (h : w ∈ ["Head", "HEAD", "head"]) :
      MethodGenerated w ": : routekit : : RestMethod : : Head" .head
  | options {w : String} (h : w ∈ ["Options", "OPTIONS", "options"]) :
      MethodGenerated w ": : routekit : : RestMethod : : Options" .options
  | trace {w : String} (h : w ∈ ["Trace", "TRACE", "trace"]) :
      MethodGenerated w ": : routekit : : RestMethod : : Trace" .trace

/-- The entries of a declaration state an implementation, and the entry of its route in a schema. No
key is given twice, so that what an entry gives is what is declared. -/
structure Generates (m : Meaning τ) (es : List Entry) (x : Implementation)
    (entry : RouteEntry τ) : Prop where
  once : (es.filterMap Entry.key?).Nodup
  interface : x.render.interface = ": : routekit : : Route"
  name : ∃ l, .name l ∈ es ∧ x.render.name = String.intercalate " " l.token.texts ∧
    (x.route m).name = l.value ∧ entry.name.text = l.value
  method : ∃ w, .method w ∈ es ∧ MethodGenerated w x.render.method (x.route m).method ∧
    entry.method = (x.route m).method
  url : ∃ e form, .url e ∈ es ∧ UrlDeclared e (es.filterMap Entry.pathParams?) form ∧
    UrlGenerated m x entry form
  query : SlotGenerated (es.filterMap Entry.queryParams?) x.render.queryParams (x.route m).query ∧
    entry.query = (x.route m).query
  data : SlotGenerated (es.filterMap Entry.data?) x.render.data (x.route m).data ∧
    entry.data = (x.route m).data
  response : ∃ w t, .response w t ∈ es ∧
    ResponseGenerated m w t x.render.response (x.route m).response

/-! ### Texts of parts -/

theorem spaced_forbidden : spaced Marker.forbidden.texts = ": : routekit : : Forbidden" := rfl

theorem spaced_applied (names : List String) (t : Ty) :
    spaced (applied names t) = String.intercalate " "
      (libraryPath names ++ ["<"] ++ Token.textsOfList t.tokens ++ [">"]) := by
  simp [spaced, applied, Ty.texts]

theorem spaced_rule (constructor : String) (argument : List String) :
    spaced (braced (ruleTexts constructor argument)) = String.intercalate " "
      (["\x7b", ":", ":", "routekit", ":", ":", "UrlRule", ":", ":", constructor, "("] ++
        argument ++ [")", "\x7d"]) := by
  simp [spaced, braced, ruleTexts, libraryPath]

/-! ### Classification and generation -/

theorem urlDeclared_of_ofClosure {e : Expr} {ps : List (Option Ty)} {form : UrlForm}
    (he : e.form = .closure ps) (h : UrlForm.ofClosure e ps = .ok form) :
    UrlDeclared e [] form := by
  unfold UrlForm.ofClosure at h
  split at h
  · cases h
    exact .constant he
  · cases h
  · cases h
  · cases h
    exact .reference he
  · split at h
    · next ho =>
      cases h
      exact .option he (Ty.optionArgument?_eq_some_iff.1 ho)
    · cases h

theorem urlDeclared_ofFunction {e : Expr} (he : e.form = .path) (params : Option Ty) :
    UrlDeclared e params.toList (UrlForm.ofFunction e params) := by
  unfold UrlForm.ofFunction
  split
  · exact .function he
  · split
    · next ho => exact .functionOfOption he (Ty.optionArgument?_eq_some_iff.1 ho)
    · next ho => exact .functionOf he (Ty.optionArgument?_eq_none_iff.1 ho)

/-- A URL is classified as it is declared. -/
theorem urlDeclared_of_classify {e : Expr} {params : Option Ty} {form : UrlForm}
    (h : UrlForm.classify e params = .ok form) : UrlDeclared e params.toList form := by
  unfold UrlForm.classify at h
  split at h
  · next l he =>
    cases params with
    | none =>
      cases h
      exact .literal he
    | some t => cases h
  · cases h
  · next ps he =>
    cases params with
    | none => exact urlDeclared_of_ofClosure he h
    | some t => cases h
  · next he =>
    cases h
    exact urlDeclared_ofFunction he params
  · cases h

/-- A schema resolves the URL of a route by the rule that goes with its marker. -/
theorem urlGenerated_route (m : Meaning τ) (x : Implementation) (n : RouteName)
    (hn : n.text = x.name.value) :
    UrlGenerated m x (.ofRoute n (x.route m)) x.url := by
  obtain ⟨typeName, name, method, url, query, data, response, defaults⟩ := x
  obtain ⟨text, valid⟩ := n
  dsimp only at hn
  subst hn
  cases url with
  | literal l =>
    exact .literal spaced_forbidden (spaced_rule "literal" _) rfl rfl rfl rfl fun v => rfl
  | computed e =>
    have hrule := spaced_rule "computed" (Token.textsOfList e.tokens)
    exact .computed spaced_forbidden hrule rfl rfl rfl rfl fun v => rfl
  | builder e t =>
    let r := Implementation.route
      ⟨typeName, name, method, .builder e t, query, data, response, defaults⟩ m
    have hmarker := spaced_applied ["Required"] t
    have hrule := spaced_rule "builder" (Token.textsOfList e.tokens)
    refine .builder hmarker hrule rfl rfl rfl rfl (fun v => ?_) fun v ht => ?_
    · exact RouteEntry.resolver_map_erase r (some v)
    · exact RouteEntry.resolver_eq_mismatch (t := r) fun h => ht (Option.some.inj h).symm
  | optionalBuilder e t =>
    let r := Implementation.route
      ⟨typeName, name, method, .optionalBuilder e t, query, data, response, defaults⟩ m
    have hmarker := spaced_applied ["Optional"] t
    have hrule := spaced_rule "optional_builder" (Token.textsOfList e.tokens)
    refine .optionalBuilder hmarker hrule rfl rfl rfl rfl (fun v => ?_) fun v ht => ?_
    · exact RouteEntry.resolver_map_erase r (some v)
    · exact RouteEntry.resolver_eq_mismatch (t := r) fun h => ht (Option.some.inj h).symm

/-- A slot is generated as it is declared. -/
theorem slotGenerated_ofDeclared (t : Option Ty) :
    SlotGenerated t.toList (spaced (Marker.ofDeclared t).texts) (Marker.ofDeclared t).kind := by
  unfold Marker.ofDeclared
  split
  · exact .undeclared
  · exact .unit
  · next t hu =>
    split
    · next ho => exact .option (Ty.optionArgument?_eq_some_iff.1 ho)
    · next ho => exact .value (fun h => hu (h ▸ rfl)) (Ty.optionArgument?_eq_none_iff.1 ho)

/-- A response is generated as it is declared. -/
theorem responseGenerated_of_ofEntry (m : Meaning τ) {w : String} {t : Option Ty}
    {d : ResponseDeclaration} (h : ResponseDeclaration.ofEntry w t = .ok d) :
    ResponseGenerated m w t (spaced d.texts) (m.format d) := by
  unfold ResponseDeclaration.ofEntry formatOf? at h
  split_ifs at h with hjson hyaml hxml htext hhtml hcsv hbinary hempty <;> cases t <;> cases h
  · exact .json (List.contains_iff_mem.1 hjson)
  · exact .yaml (List.contains_iff_mem.1 hyaml)
  · exact .xml (List.contains_iff_mem.1 hxml)
  · exact .text (List.contains_iff_mem.1 htext)
  · exact .html (List.contains_iff_mem.1 hhtml)
  · exact .csv (List.contains_iff_mem.1 hcsv)
  · exact .binary (List.contains_iff_mem.1 hbinary)
  · exact .empty (List.contains_iff_mem.1 hempty)

/-! ### Declarations that are accepted -/

/-- A method is generated as it is spelled. -/
theorem methodGenerated_of_methodOf? {w : String} {k : Method} (h : methodOf? w = some k) :
    MethodGenerated w (spaced (libraryPath ["RestMethod", k.title])) k := by
  have hc := List.find?_some h
  have hw : w ∈ methodSpellings k := List.contains_iff_mem.1 hc
  cases k <;> constructor <;> exact hw

/-- An item that is accepted is implemented under its own name, with a name that a schema admits. -/
theorem named_of_derive [Grammar] {i : Item} {x : Implementation} (h : i.derive = .ok x) :
    x.typeName = i.name ∧ RouteName.fault? x.name.value = none := by
  obtain ⟨-, c, hc, hx⟩ := derive_eq_ok_iff.1 h
  have hg := Config.Gathers.of_ofEntries hc
  obtain ⟨name, -, -, -, -, hname, -, -, -, -, rfl⟩ := implementation_eq_ok_iff.1 hx
  obtain ⟨e, he, hs⟩ := hg.exists_mem Config.nameSlot hname
  cases e <;> cases hs
  exact ⟨rfl, hg.valid _ he⟩

/-- The entries of an item that is accepted state its implementation. -/
theorem generates_of_derive [Grammar] (m : Meaning τ) {i : Item} {es : List Entry}
    {x : Implementation} (hl : i.Lists es) (h : i.derive = .ok x) {n : RouteName}
    (hn : n.text = x.name.value) :
    Generates m es x (.ofRoute n (x.route m)) := by
  obtain ⟨-, c, hc, hx⟩ := derive_eq_ok_iff.1 h
  obtain ⟨rfl, -⟩ := Item.lists_iff.1 hl
  have hg := Config.Gathers.of_ofEntries hc
  have hurl := urlGenerated_route m x n hn
  obtain ⟨name, method, url, response, form, hname, hmethod, hu, hresponse, hf, rfl⟩ :=
    implementation_eq_ok_iff.1 hx
  constructor
  case once => exact hg.fits.once
  case interface => rfl
  case name =>
    obtain ⟨e, he, hs⟩ := hg.exists_mem Config.nameSlot hname
    cases e <;> cases hs
    exact ⟨name, he, rfl, rfl, hn⟩
  case method =>
    obtain ⟨e, he, hs⟩ := hg.exists_mem Config.methodSlot hmethod
    cases e with
    | method w => exact ⟨w, he, methodGenerated_of_methodOf? hs, rfl⟩
    | _ => cases hs
  case url =>
    obtain ⟨e, he, hs⟩ := hg.exists_mem Config.urlSlot hu
    cases e <;> cases hs
    exact ⟨url, form, he, hg.slot Config.pathParamsSlot ▸ urlDeclared_of_classify hf, hurl⟩
  case query => exact ⟨hg.slot Config.queryParamsSlot ▸ slotGenerated_ofDeclared _, rfl⟩
  case data => exact ⟨hg.slot Config.dataSlot ▸ slotGenerated_ofDeclared _, rfl⟩
  case response =>
    obtain ⟨e, he, hs⟩ := hg.exists_mem Config.responseSlot hresponse
    cases e with
    | response w t =>
      have hr : ResponseDeclaration.ofEntry w t = .ok response := by
        cases ho : ResponseDeclaration.ofEntry w t <;> rw [Entry.response?, ho] at hs <;> cases hs
        rfl
      exact ⟨w, t, he, responseGenerated_of_ofEntry m hr⟩
    | _ => cases hs

/-- **What is generated is what is declared.** A declaration that is accepted lists entries, which
stand in its attributes token for token, and the parameter types of a closure among them stand in
the closure. In every schema that has its route the entries state the texts of the implementation,
the route and its entry in the schema: its name and method, the presence of each slot, the response,
and the marker of the path parameters with the rule that has this marker, for the type that is
declared, by which the URL is resolved. A schema of the route alone exists. -/
theorem derive_generates [Grammar] [LawfulGrammar] (m : Meaning τ) {ts : List Token}
    {x : Implementation} (h : derive ts = .ok x) :
    ∃ i es, Grammar.item ts = .ok i ∧ i.Lists es ∧ x.render.typeName = i.name ∧
      (∀ e ∈ es, e.written?.isSome = true → i.Writes e) ∧
      (∀ e ps t, .url e ∈ es → e.form = .closure ps → some t ∈ ps → t.tokens <:+: e.tokens) ∧
      (∃ s, Schema.ofRoutes [x.route m] = .ok s) ∧
        ∀ rs s, x.route m ∈ rs → Schema.ofRoutes rs = .ok s →
          ∃ entry, s.get? x.name.value = some entry ∧ Generates m es x entry := by
  obtain ⟨i, hi, hd⟩ := exists_item_of_derive h
  obtain ⟨-, -, es, hl, -⟩ := accepts_iff.1 ⟨x, hd⟩
  obtain ⟨htype, hvalid⟩ := named_of_derive hd
  refine ⟨i, es, hi, hl, htype, fun e he hw => hl.writes he hw,
    fun e ps t he hf ht => hl.closure_tokens he hf ht, ?_, fun rs s hx hs => ?_⟩
  · refine Schema.exists_ofRoutes_iff.2 ⟨fun r hr => ?_, List.nodup_singleton _⟩
    cases List.mem_singleton.1 hr
    exact hvalid
  · obtain ⟨entry, he, n, hn, rfl⟩ := Schema.exists_get?_of_mem hs hx
    exact ⟨_, he, generates_of_derive m hl hd hn⟩

/-- A route with a function of declared path parameters, in two attributes. -/
def getUserTokens : List Token :=
  [.mark '#' false, .group .bracket [.word "route", .group .parenthesis
      [.word "name", .mark '=' false, .literal "\"GET users/:id\"" (.text "GET users/:id"),
        .mark ',' false, .word "method", .mark '=' false, .word "Get"]],
    .mark '#' false, .group .bracket [.word "route", .group .parenthesis
      [.word "url", .mark '=' false, .word "user_url",
        .mark ',' false, .word "path_params", .mark '=' false, .word "UserPath",
        .mark ',' false, .word "data", .mark '=' false, .word "Option", .mark '<' false,
        .word "Patch", .mark '>' false,
        .mark ',' false, .word "response", .mark '=' false, .word "empty"]],
    .word "struct", .word "GetUser", .mark ';' false]

/-- The implementation that is made of it. -/
def getUserImplementation : Implementation where
  typeName := "GetUser"
  name := ⟨"GET users/:id", .literal "\"GET users/:id\"" (.text "GET users/:id")⟩
  method := .get
  url := .builder ⟨.path, [.word "user_url"]⟩ (.path false [] "UserPath" none)
  queryParams := .forbidden
  data := .optional (.path false [] "Patch" none)
  response := .untyped .empty
  defaults := []

instance : ParamTypes String := ⟨fun _ => String, inferInstance⟩

/-- An application whose types go by their texts and are all of strings. -/
def usersMeaning : Meaning String where
  params t := spaced t.texts
  shape _ := .text
  computed _ _ := "users"
  builder _ _ id := "users/" ++ id
  optionalBuilder _ _ id := "users/" ++ id.getD ""

/-- The function is asked for the URL of a user. -/
theorem derive_generates_getUser :
    derive getUserTokens = .ok getUserImplementation ∧
      getUserImplementation.render = {
        interface := ": : routekit : : Route"
        typeName := "GetUser"
        name := "\"GET users/:id\""
        method := ": : routekit : : RestMethod : : Get"
        pathParams := ": : routekit : : Required < UserPath >"
        queryParams := ": : routekit : : Forbidden"
        data := ": : routekit : : Optional < Patch >"
        response := ": : routekit : : response : : EmptyFormat"
        url := "\x7b : : routekit : : UrlRule : : builder ( user_url ) \x7d"
        defaultQuery := none } ∧
      ∃ es s entry, Schema.ofRoutes [getUserImplementation.route usersMeaning] = .ok s ∧
        s.get? "GET users/:id" = some entry ∧
        Generates usersMeaning es getUserImplementation entry ∧
        entry.resolve (some ⟨"UserPath", "7"⟩) = .ok "users/7" := by
  have h : derive getUserTokens = .ok getUserImplementation := rfl
  obtain ⟨i, es, -, -, -, -, -, ⟨s, hs⟩, hentry⟩ := derive_generates usersMeaning h
  obtain ⟨entry, he, hg⟩ := hentry _ s (List.mem_singleton_self _) hs
  obtain ⟨r, hr, -, n, -, rfl⟩ := Schema.exists_mem_of_get? hs he
  cases List.mem_singleton.1 hr
  exact ⟨h, rfl, es, s, _, hs, he, hg, rfl⟩

end RestDispatch.Declaration
