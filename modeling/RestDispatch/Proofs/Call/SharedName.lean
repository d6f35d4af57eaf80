import RestDispatch.Proofs.Call.Prepare
import RestDispatch.Proofs.Schema.Construction

/-!
# Routes that share a name

A call names its route, and the schema may have another route under that name. What the slots of the
call take is then declared by the one route, and the method, the URL and the default query by the
other. `reflects_registered` says which declaration a request shows in which part. The two may also
differ in the type of their path parameters: `prepare_eq_mismatch_iff` says that this is told exactly
when path parameters are given.
-/

namespace RestDispatch

variable {τ : Type} [ParamTypes τ]

namespace Call

variable {r : Route τ} {ω : Type}

/-! ### Which declaration a request shows -/

/-- What a request to the route `t` of the schema has of a call to a route of the same name: the
method, the default query and the URL are those of `t`, for the path parameters of the call, which
are of the type that `t` declares if there are any; and there is a body only if the route of the call
takes one. -/
structure Reflects (c : Call r ω) (t : Route τ) (q : Request) : Prop where
  method : q.method = t.method
  given : c.path.value?.isSome = true → r.path.type? = t.path.type?
  url : r.path.type? = t.path.type? → ∃ v, v.map t.path.erase = c.path.value?.map r.path.erase ∧
    t.rule.resolve t.name v = .ok q.url
  query : ∃ caller, c.Gives caller ∧
    ∀ k, q.query.get? k = (caller.get? k).or (t.defaultQuery.get? k)
  body : q.body.isSome = true → r.data ≠ .forbidden

/-- Without a value in its slot a call carries no body, and a slot that must not be filled has
none. -/
theorem Carries.ne_forbidden {c : Call r ω} {b : Option Json} (h : c.Carries b)
    (hb : b.isSome = true) : r.data ≠ .forbidden := by
  have hnone {k : PresenceKind} (slot : Slot k Serial) (hk : k = .forbidden) :
      slot.value? = none := by
    subst hk
    exact slot.value?_eq_none_of_forbidden
  intro hk
  rw [Carries, hnone c.data hk] at h
  rw [h] at hb
  cases hb

theorem Resolves.reflects {c : Call r ω} {entry : RouteEntry τ} {t : Route τ} {q : Request}
    (h : c.Resolves entry q) (ht : entry.IsOf t) : c.Reflects t q := by
  obtain ⟨n, -, rfl⟩ := ht
  have hurl : ∃ v, v.map t.path.erase = c.path.value?.map r.path.erase ∧
      t.rule.resolve t.name v = .ok q.url := RouteEntry.exists_resolve_of_resolver h.url
  refine ⟨h.method, fun hv => ?_, fun _ => hurl, h.query, fun hb => h.body.ne_forbidden hb⟩
  -- a value that is one of each of the two routes has the type that both declare
  obtain ⟨v, hv⟩ := Option.isSome_iff_exists.1 hv
  obtain ⟨w, hw, -⟩ := hurl
  rw [hv] at hw
  obtain ⟨w', -, he⟩ := Option.map_eq_some_iff.1 hw
  rw [r.path.type?_eq_some v, ← he, ← t.path.type?_eq_some w']

/-- **Which declaration a request shows.** A call that is resolved shows one route of the schema, the
one that has the name of the route of the call: its own route, if the schema has that. -/
theorem reflects_registered {rs : List (Route τ)} {s : Schema τ} (hs : Schema.ofRoutes rs = .ok s)
    {c : Call r ω} {q : Request} {options : ω} (h : (c.prepare s).1 = .ok (q, options)) :
    ∃ t ∈ rs, t.name = r.name ∧ (∀ t' ∈ rs, t'.name = r.name → t' = t) ∧ c.Reflects t q := by
  cases hentry : s.get? r.name with
  | none => cases (prepare_of_get?_eq_none hentry).symm.trans h
  | some entry =>
    obtain ⟨t, ht, hname, hof⟩ := Schema.exists_mem_of_get? hs hentry
    have hw : WellNamed rs := Schema.exists_ofRoutes_iff.1 ⟨s, hs⟩
    refine ⟨t, ht, hname, fun t' ht' hname' => ?_, ?_⟩
    · exact List.inj_on_of_nodup_map hw.distinct ht' ht (hname'.trans hname.symm)
    · exact ((prepare_eq_ok_iff hentry).1 h).2.reflects hof

/-- A route with parameters of its own. -/
def listUsers : Route SampleType where
  name := "users.list"
  method := .get
  path := .forbidden
  rule := .literal "users"
  query := .optional
  data := .forbidden
  response := .text
  defaultQuery := .ofList [("format", "json"), ("page", "1")]

/-- Another route with the name of `listUsers`, which takes a body. -/
def addUser : Route SampleType where
  name := "users.list"
  method := .post
  path := .forbidden
  rule := .literal "people"
  query := .forbidden
  data := .required
  response := .text
  defaultQuery := .empty

/-- A call that adds a user. -/
def addUserCall : Call addUser Unit where
  path := .untouched
  query := .untouched
  data := .written (Serial.text "x")
  options := ()

/-- A call to one route shows the other that the schema has under its name. -/
theorem reflects_listUsers :
    ∃ s q, Schema.ofRoutes [listUsers] = .ok s ∧ (addUserCall.prepare s).1 = .ok (q, ()) ∧
      addUserCall.Reflects listUsers q := by
  have hs : Schema.ofRoutes [listUsers] = .ok _ := rfl
  obtain ⟨t, ht, -, -, h⟩ := reflects_registered hs (c := addUserCall) rfl
  rw [List.mem_singleton.1 ht] at h
  exact ⟨_, _, hs, rfl, h⟩

/-- A call that adds a user is sent as one that lists them: with the method, the URL and the query of
the other route, and with a body that this one does not take. -/
theorem prepare_addUserCall :
    ∃ s q, Schema.ofRoutes [listUsers] = .ok s ∧ addUserCall.isReady = true ∧
      (addUserCall.prepare s).1 = .ok (q, ()) ∧ q.method ≠ addUser.method ∧
      addUser.rule.resolve addUser.name none ≠ .ok q.url ∧ q.query ≠ addUser.defaultQuery ∧
      q.body.isSome = true ∧ listUsers.data = .forbidden :=
  ⟨_, _, rfl, rfl, rfl, by decide, by decide, by decide, rfl, rfl⟩

/-! ### Other types of path parameters -/

/-- A call without path parameters does not fail over their type. -/
theorem FirstFailure.ne_mismatch {c : Call r ω} {entry : RouteEntry τ} {t : Route τ}
    (ht : entry.IsOf t) (hv : c.path.value? = none) {e : ConfigError} (h : c.FirstFailure entry e)
    (route : String) : e ≠ .pathParamsMismatch route := by
  obtain ⟨n, -, rfl⟩ := ht
  rcases h.url_or_value with he | ⟨m, rfl, -⟩ | ⟨f, rfl, -⟩
  · rw [url, hv] at he
    rintro rfl
    exact RouteEntry.resolver_none_ne_mismatch t route he
  · simp
  · simp

/-- **When path parameters of another type are told.** A call to a route, where the schema has a
route of the same name with another type of path parameters, fails over that exactly when it gives
path parameters. -/
theorem prepare_eq_mismatch_iff {rs : List (Route τ)} {s : Schema τ}
    (hs : Schema.ofRoutes rs = .ok s) {t : Route τ} (ht : t ∈ rs) (hname : t.name = r.name)
    (htype : r.path.type? ≠ t.path.type?) (c : Call r ω) :
    (c.prepare s).1 = .error (.pathParamsMismatch r.name) ↔ c.path.value?.isSome = true := by
  obtain ⟨entry, hentry, hof⟩ := Schema.exists_get?_of_mem hs ht
  rw [hname] at hentry
  rw [prepare_eq_error_iff hentry]
  cases hv : c.path.value? with
  | none => exact ⟨fun h => absurd rfl (h.ne_mismatch hof hv r.name), fun h => by cases h⟩
  | some v =>
    refine ⟨fun _ => rfl, fun _ => .path ?_⟩
    obtain ⟨n, -, rfl⟩ := hof
    have hne : t.path.type? ≠ some (r.path.erase v).type := by
      rw [← r.path.type?_eq_some v]
      exact htype.symm
    rw [url, hv, ← hname]
    exact RouteEntry.resolver_eq_mismatch hne

/-- A route with the name of `getUser` that takes no path parameters. -/
def allUsers : Route SampleType where
  name := "users.get"
  method := .get
  path := .forbidden
  rule := .literal "users"
  query := .forbidden
  data := .forbidden
  response := .text
  defaultQuery := .empty

/-- A route with the name of `getUser` that may be given path parameters. -/
def anyUser : Route SampleType where
  name := "users.get"
  method := .get
  path := .optional .id
  rule := .optionalBuilder fun (id : Option Nat) => "people/" ++ toString (id.getD 0)
  query := .forbidden
  data := .forbidden
  response := .text
  defaultQuery := .empty

/-- Path parameters that are given are told from those of a route without any. -/
theorem prepare_getUserPage_mismatch :
    ∃ s, Schema.ofRoutes [allUsers] = .ok s ∧ getUserPage.path.value?.isSome = true ∧
      (getUserPage.prepare s).1 = .error (.pathParamsMismatch "users.get") :=
  have hs : Schema.ofRoutes [allUsers] = .ok _ := rfl
  ⟨_, hs, rfl, (prepare_eq_mismatch_iff (r := getUser) (t := allUsers) hs
    (List.mem_singleton.2 rfl) rfl (by decide) getUserPage).2 rfl⟩

/-- A call without path parameters is not told from one to the route that the schema has: it is asked
for path parameters that its own route does not take, or it has the URL of the other route. -/
theorem prepare_allUsers_ne_mismatch :
    allUsers.path.type? ≠ getUser.path.type? ∧ allUsers.path.type? ≠ anyUser.path.type? ∧
      (start allUsers ()).isReady = true ∧
      (∃ s, Schema.ofRoutes [getUser] = .ok s ∧
        ((start allUsers ()).prepare s).1 = .error (.missingPathParams "users.get")) ∧
      ∃ s, Schema.ofRoutes [anyUser] = .ok s ∧
        ((start allUsers ()).prepare s).1 =
          .ok (⟨"users.get", .get, "people/0", .empty, none⟩, ()) :=
  ⟨by decide, by decide, rfl, ⟨_, rfl, rfl⟩, ⟨_, rfl, rfl⟩⟩

end Call
end RestDispatch
