import RestDispatch.Call
import RestDispatch.Proofs.Schema.Registration

/-!
# Resolving a call

What `Call.prepare` gives for a call and a schema. A route that the schema does not have is told
first; then the URL, the query parameters and the body are made, and the first that fails decides.
`resolves_or_firstFailure` says so of every route and every schema of routes, and `prepare_of_mem`
what is left of it for a call that may be sent to one of the routes of the schema: its URL is that
of the rule of the route, and nothing fails but values that cannot be written.
-/

namespace RestDispatch

variable {τ : Type} [ParamTypes τ]

/-- A rule has a URL for whatever its route lets a caller leave in the slot. -/
theorem UrlRule.exists_resolve_of_isReady {p : PathParams τ} (rule : UrlRule p) (route : String)
    {slot : Slot p.kind p.Value} (h : slot.isReady = true) :
    ∃ url, rule.resolve route slot.value? = .ok url := by
  cases rule with
  | literal url => exact ⟨url, rfl⟩
  | computed build => exact ⟨build (), rfl⟩
  | builder build =>
    obtain ⟨v, hv⟩ := Option.isSome_iff_exists.1 (Slot.isSome_value?_of_required h)
    exact ⟨build v, congrArg (UrlRule.resolve route (.builder build)) hv⟩
  | optionalBuilder build => exact ⟨build slot.value?, rfl⟩

/-- Query parameters fail over what they are, or over values that have no JSON form. -/
theorem ConfigError.ofQuery_cases (route : String) (f : Query.Fault) :
    (∃ message, ofQuery route f = .invalidQuery route message) ∨
      ∃ g, ofQuery route f = .payload route g := by
  cases f with
  | unserializable g => exact .inr ⟨g, rfl⟩
  | notAnObject kind => exact .inl ⟨_, rfl⟩
  | nested key kind => exact .inl ⟨_, rfl⟩

namespace Call

variable {r : Route τ} {ω : Type}

theorem isReady_path {c : Call r ω} (h : c.isReady = true) : c.path.isReady = true := by
  simp only [isReady, Bool.and_eq_true] at h
  exact h.1.1

/-- The URL that an entry has for the path parameters of a call. -/
def url (c : Call r ω) (entry : RouteEntry τ) : Except ConfigError String :=
  entry.resolve (c.path.value?.map r.path.erase)

/-- The query parameters that a call gives: those of the value in its slot, or none. -/
def Gives (c : Call r ω) (caller : Query) : Prop :=
  match c.query.value? with
  | none => caller = .empty
  | some v => Query.flatten v = .ok caller

/-- The body that a call carries: the JSON form of the value in its slot, or none. -/
def Carries (c : Call r ω) (body : Option Json) : Prop :=
  match c.data.value? with
  | none => body = none
  | some d => ∃ j, d.toJson = .ok j ∧ body = some j

/-- The first thing that is wrong with a call to a route with an entry. -/
inductive FirstFailure (c : Call r ω) (entry : RouteEntry τ) : ConfigError → Prop
  | path {e : ConfigError} (he : c.url entry = .error e) : FirstFailure c entry e
  | query {url : String} {v : Serial} {f : Query.Fault} (hu : c.url entry = .ok url)
      (hv : c.query.value? = some v) (hf : Query.flatten v = .error f) :
      FirstFailure c entry (.ofQuery r.name f)
  | data {url : String} {caller : Query} {d : Serial} {f : SerialFault}
      (hu : c.url entry = .ok url) (hg : c.Gives caller) (hd : c.data.value? = some d)
      (hf : d.toJson = .error f) : FirstFailure c entry (.payload r.name f)

/-- What a call asks of a route with an entry. -/
structure Resolves (c : Call r ω) (entry : RouteEntry τ) (q : Request) : Prop where
  route : q.route = r.name
  method : q.method = entry.method
  url : c.url entry = .ok q.url
  body : c.Carries q.body
  query : ∃ caller, c.Gives caller ∧
    ∀ k, q.query.get? k = (caller.get? k).or (entry.defaultQuery.get? k)

theorem callerQuery_eq_ok_iff {c : Call r ω} {q : Query} : c.callerQuery = .ok q ↔ c.Gives q := by
  unfold callerQuery Gives
  cases c.query.value? with
  | none => simp [eq_comm]
  | some v => exact mapError_eq_ok_iff

theorem callerQuery_eq_error_iff {c : Call r ω} {e : ConfigError} :
    c.callerQuery = .error e ↔
      ∃ v f, c.query.value? = some v ∧ Query.flatten v = .error f ∧ .ofQuery r.name f = e := by
  unfold callerQuery
  cases c.query.value? with
  | none => simp
  | some v =>
    show (Query.flatten v).mapError (ConfigError.ofQuery r.name) = .error e ↔ _
    simp [mapError_eq_error_iff]

theorem body_eq_ok_iff {c : Call r ω} {b : Option Json} : c.body = .ok b ↔ c.Carries b := by
  unfold body Carries
  cases c.data.value? with
  | none => simp [eq_comm]
  | some d =>
    show (d.toJson.map some).mapError (ConfigError.payload r.name) = .ok b ↔ _
    rw [mapError_eq_ok_iff]
    cases hj : d.toJson <;> simp [Except.map, hj, eq_comm]

theorem body_eq_error_iff {c : Call r ω} {e : ConfigError} :
    c.body = .error e ↔
      ∃ d f, c.data.value? = some d ∧ d.toJson = .error f ∧ .payload r.name f = e := by
  unfold body
  cases c.data.value? with
  | none => simp
  | some d =>
    show (d.toJson.map some).mapError (ConfigError.payload r.name) = .error e ↔ _
    rw [mapError_eq_error_iff]
    cases hj : d.toJson <;> simp [Except.map, hj]

/-- A request is made of a URL, query parameters and a body, in this order. -/
theorem request_eq (c : Call r ω) (entry : RouteEntry τ) :
    c.request entry = (c.url entry).bind fun url => c.callerQuery.bind fun caller =>
      c.body.bind fun body =>
        .ok ⟨r.name, entry.method, url, .merge entry.defaultQuery caller, body⟩ := rfl

/-- A call to a route with an entry is resolved, or something is wrong with it. -/
theorem request_cases (c : Call r ω) (entry : RouteEntry τ) :
    (∃ q, c.request entry = .ok q ∧ c.Resolves entry q) ∨
      ∃ e, c.request entry = .error e ∧ c.FirstFailure entry e := by
  rw [request_eq]
  cases hu : c.url entry with
  | error e => exact .inr ⟨e, rfl, .path hu⟩
  | ok url =>
    cases hq : c.callerQuery with
    | error e =>
      obtain ⟨v, f, hv, hf, he⟩ := callerQuery_eq_error_iff.1 hq
      exact .inr ⟨e, rfl, he ▸ .query hu hv hf⟩
    | ok caller =>
      have hg := callerQuery_eq_ok_iff.1 hq
      cases hb : c.body with
      | error e =>
        obtain ⟨d, f, hd, hf, he⟩ := body_eq_error_iff.1 hb
        exact .inr ⟨e, rfl, he ▸ .data hu hg hd hf⟩
      | ok body =>
        exact .inl ⟨_, rfl, rfl, rfl, hu, body_eq_ok_iff.1 hb, caller, hg, Table.get?_union _ _⟩

theorem request_eq_ok_iff {c : Call r ω} {entry : RouteEntry τ} {q : Request} :
    c.request entry = .ok q ↔ c.Resolves entry q := by
  constructor
  · intro h
    rcases request_cases c entry with ⟨q', hq, hr⟩ | ⟨e, he, -⟩
    · cases hq.symm.trans h
      exact hr
    · cases he.symm.trans h
  · rintro ⟨hroute, hmethod, hu, hb, caller, hg, hget⟩
    -- the query parameters are known under every name, and that makes them those of the request
    have hmerge : q.query = .merge entry.defaultQuery caller :=
      Table.ext_get? fun k => (hget k).trans (Table.get?_union _ _ k).symm
    rw [request_eq, hu, callerQuery_eq_ok_iff.2 hg, body_eq_ok_iff.2 hb]
    cases q
    cases hroute
    cases hmethod
    cases hmerge
    rfl

theorem request_eq_error_iff {c : Call r ω} {entry : RouteEntry τ} {e : ConfigError} :
    c.request entry = .error e ↔ c.FirstFailure entry e := by
  constructor
  · intro h
    rcases request_cases c entry with ⟨q, hq, -⟩ | ⟨e', he, hf⟩
    · cases hq.symm.trans h
    · cases he.symm.trans h
      exact hf
  · intro h
    rw [request_eq]
    cases h with
    | path he => rw [he]; rfl
    | query hu hv hf => rw [hu, callerQuery_eq_error_iff.2 ⟨_, _, hv, hf, rfl⟩]; rfl
    | data hu hg hd hf =>
      rw [hu, callerQuery_eq_ok_iff.2 hg, body_eq_error_iff.2 ⟨_, _, hd, hf, rfl⟩]
      rfl

theorem prepare_of_get?_eq_none {c : Call r ω} {s : Schema τ} (h : s.get? r.name = none) :
    (c.prepare s).1 = .error (.unknownRoute r.name) := by
  simp only [prepare, h]

theorem prepare_of_get?_eq_some {c : Call r ω} {s : Schema τ} {entry : RouteEntry τ}
    (h : s.get? r.name = some entry) :
    (c.prepare s).1 = (c.request entry).map fun q => (q, c.options) := by
  simp only [prepare, h]
  cases c.request entry <;> rfl

theorem prepare_eq_ok_iff {c : Call r ω} {s : Schema τ} {entry : RouteEntry τ}
    (h : s.get? r.name = some entry) {q : Request} {options : ω} :
    (c.prepare s).1 = .ok (q, options) ↔ options = c.options ∧ c.Resolves entry q := by
  rw [prepare_of_get?_eq_some h, ← request_eq_ok_iff]
  cases c.request entry <;> simp [Except.map, and_comm, eq_comm]

theorem prepare_eq_error_iff {c : Call r ω} {s : Schema τ} {entry : RouteEntry τ}
    (h : s.get? r.name = some entry) {e : ConfigError} :
    (c.prepare s).1 = .error e ↔ c.FirstFailure entry e := by
  rw [prepare_of_get?_eq_some h, ← request_eq_error_iff]
  cases c.request entry <;> simp [Except.map]

/-- What is wrong first with a call is the URL, or a value in one of the other slots. -/
theorem FirstFailure.url_or_value {c : Call r ω} {entry : RouteEntry τ} {e : ConfigError}
    (h : c.FirstFailure entry e) :
    c.url entry = .error e ∨
      (∃ message, e = .invalidQuery r.name message ∧ c.query.value?.isSome = true) ∨
      ∃ f, e = .payload r.name f ∧
        (c.query.value?.isSome = true ∨ c.data.value?.isSome = true) := by
  cases h with
  | path he => exact .inl he
  | @query _ v f _ hv _ =>
    have hq : c.query.value?.isSome = true := by rw [hv]; rfl
    rcases ConfigError.ofQuery_cases r.name f with ⟨m, hm⟩ | ⟨g, hg⟩
    · exact .inr (.inl ⟨m, hm, hq⟩)
    · exact .inr (.inr ⟨g, hg, .inl hq⟩)
  | @data _ _ d f _ _ hd _ => exact .inr (.inr ⟨f, rfl, .inr (by rw [hd]; rfl)⟩)

/-- No call to a route with an entry fails because the route is unknown. -/
theorem FirstFailure.ne_unknownRoute {c : Call r ω} {entry : RouteEntry τ} {q : Route τ}
    (he : entry.IsOf q) {e : ConfigError} (h : c.FirstFailure entry e) (name : String) :
    e ≠ .unknownRoute name := by
  obtain ⟨n, -, rfl⟩ := he
  rcases h.url_or_value with he | ⟨m, rfl, -⟩ | ⟨f, rfl, -⟩
  · rcases RouteEntry.eq_of_resolver_eq_error he with rfl | rfl <;> simp
  · simp
  · simp

/-- **What resolving a call gives.** A route that a schema of routes does not have is unknown.
Otherwise the first thing that is wrong with the call is told, and if there is none the request is
what the call asks of the entry of the route, with the options of the call. -/
theorem resolves_or_firstFailure {rs : List (Route τ)} {s : Schema τ}
    (hs : Schema.ofRoutes rs = .ok s) (c : Call r ω) :
    ((c.prepare s).1 = .error (.unknownRoute r.name) ↔ s.get? r.name = none) ∧
      ∀ entry, s.get? r.name = some entry →
        (∀ e, (c.prepare s).1 = .error e ↔ c.FirstFailure entry e) ∧
        ∀ q options, (c.prepare s).1 = .ok (q, options) ↔
          options = c.options ∧ c.Resolves entry q := by
  constructor
  · constructor
    · intro h
      cases he : s.get? r.name with
      | none => rfl
      | some entry =>
        -- the entry is that of some route, and those fail over path parameters alone
        obtain ⟨q, -, -, hof⟩ := Schema.exists_mem_of_get? hs he
        exact absurd rfl (((prepare_eq_error_iff he).1 h).ne_unknownRoute hof r.name)
    · exact prepare_of_get?_eq_none
  · intro entry he
    exact ⟨fun _ => prepare_eq_error_iff he, fun _ _ => prepare_eq_ok_iff he⟩

/-- A type of path parameters. -/
inductive SampleType
  | id
  deriving DecidableEq

instance : ParamTypes SampleType := ⟨fun _ => Nat, inferInstance⟩

/-- A route whose URL is made from a number. -/
def getUser : Route SampleType where
  name := "users.get"
  method := .get
  path := .required .id
  rule := .builder fun (id : Nat) => "users/" ++ toString id
  query := .optional
  data := .forbidden
  response := .text
  defaultQuery := .ofList [("format", "json"), ("page", "1")]

/-- A call that gives one of the query parameters of the route. -/
def getUserPage : Call getUser Unit where
  path := .written (7 : Nat)
  query := .written (some (.record [("page", .integer 3)]))
  data := .untouched
  options := ()

/-- A parameter of the caller stands over that of the route. -/
theorem resolves_getUserPage :
    ∃ s entry, Schema.ofRoutes [getUser] = .ok s ∧ s.get? "users.get" = some entry ∧
      getUserPage.Resolves entry
        ⟨"users.get", .get, "users/7", .ofList [("format", "json"), ("page", "3")], none⟩ :=
  have hs : Schema.ofRoutes [getUser] = .ok _ := rfl
  have h := ((resolves_or_firstFailure hs getUserPage).2 _ rfl).2 _ ()
  ⟨_, _, hs, rfl, (h.1 rfl).2⟩

/-- The entry of a route has the URL that the rule of the route gives. -/
theorem url_of_isOf {c : Call r ω} {entry : RouteEntry τ} (h : entry.IsOf r) :
    c.url entry = r.rule.resolve r.name c.path.value? := by
  obtain ⟨n, -, rfl⟩ := h
  exact RouteEntry.resolver_map_erase r c.path.value?

/-- A call whose URL can be made fails over a value in one of the other slots. -/
theorem FirstFailure.value_of_url {c : Call r ω} {entry : RouteEntry τ} {url : String}
    (hu : c.url entry = .ok url) {e : ConfigError} (h : c.FirstFailure entry e) :
    (∃ message, e = .invalidQuery r.name message ∧ c.query.value?.isSome = true) ∨
      ∃ f, e = .payload r.name f ∧
        (c.query.value?.isSome = true ∨ c.data.value?.isSome = true) := by
  refine h.url_or_value.resolve_left fun he => ?_
  cases he.symm.trans hu

/-- **A registered route always resolves.** A call that may be sent to a route of the schema has the
URL that the rule of the route gives, and fails only over a value that stands in its slot for the
query parameters or for the body. -/
theorem prepare_of_mem {rs : List (Route τ)} {s : Schema τ} (hs : Schema.ofRoutes rs = .ok s)
    (hr : r ∈ rs) {c : Call r ω} (hc : c.isReady = true) :
    ∃ url, r.rule.resolve r.name c.path.value? = .ok url ∧
      (∀ q options, (c.prepare s).1 = .ok (q, options) → q.url = url) ∧
      ∀ e, (c.prepare s).1 = .error e →
        (∃ message, e = .invalidQuery r.name message ∧ c.query.value?.isSome = true) ∨
        ∃ f, e = .payload r.name f ∧
          (c.query.value?.isSome = true ∨ c.data.value?.isSome = true) := by
  obtain ⟨entry, hentry, hof⟩ := Schema.exists_get?_of_mem hs hr
  obtain ⟨url, hrule⟩ := r.rule.exists_resolve_of_isReady r.name (isReady_path hc)
  have hu : c.url entry = .ok url := (url_of_isOf hof).trans hrule
  refine ⟨url, hrule, ?_, ?_⟩
  · intro q options h
    obtain ⟨-, hq⟩ := (prepare_eq_ok_iff hentry).1 h
    exact (Except.ok.inj (hu.symm.trans hq.url)).symm
  · intro e h
    exact ((prepare_eq_error_iff hentry).1 h).value_of_url hu

/-- A number that a caller gives stands in the URL. -/
theorem prepare_getUserPage :
    ∃ s q, Schema.ofRoutes [getUser] = .ok s ∧ getUserPage.isReady = true ∧
      (getUserPage.prepare s).1 = .ok (q, ()) ∧ q.url = "users/7" := by
  have hs : Schema.ofRoutes [getUser] = .ok _ := rfl
  obtain ⟨url, hurl, hok, -⟩ := prepare_of_mem hs (List.mem_singleton.2 rfl) (c := getUserPage) rfl
  cases hurl
  exact ⟨_, _, hs, rfl, rfl, hok _ _ rfl⟩

end Call
end RestDispatch
