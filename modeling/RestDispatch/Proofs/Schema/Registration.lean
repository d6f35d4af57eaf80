import RestDispatch.Schema

/-!
# Registered routes

What a schema holds after routes have been registered one after the other. `register_cases` is the
inversion of one registration, `Tracks` is the invariant that every registration keeps, and
`exists_get?_of_mem` and `exists_mem_of_get?` say that a schema that could be built holds the
entries of its routes under their names, and nothing else.
-/

namespace RestDispatch

variable {τ : Type} [ParamTypes τ]

namespace RouteName

/-- A text is a route name if it breaks no rule, and then it is the text of the name. -/
theorem ofString_eq_ok_iff {s : String} {n : RouteName} : ofString s = .ok n ↔ n.text = s := by
  constructor
  · intro h
    unfold ofString at h
    split at h
    · cases h
      rfl
    · cases h
  · rintro rfl
    unfold ofString
    split
    · rfl
    · next hf => rw [n.valid] at hf; cases hf

end RouteName

/-- A rule fails only over path parameters that are missing. -/
theorem UrlRule.eq_of_resolve_eq_error {p : PathParams τ} {rule : UrlRule p} {route : String}
    {v : Option p.Value} {e : ConfigError} (h : rule.resolve route v = .error e) :
    e = .missingPathParams route := by
  unfold resolve at h
  split at h <;> cases h
  rfl

namespace RouteEntry

/-- Whether an entry is that of a route under the name of the route. -/
def IsOf (e : RouteEntry τ) (r : Route τ) : Prop :=
  ∃ n : RouteName, n.text = r.name ∧ e = .ofRoute n r

/-- The resolver of a route takes values of its own type for what they are. -/
theorem resolver_map_erase (r : Route τ) (v : Option r.path.Value) :
    resolver r (v.map r.path.erase) = r.rule.resolve r.name v := by
  cases v with
  | none => rfl
  | some v => simp [resolver]

/-- The resolver of a route fails only over path parameters, and names the route. -/
theorem eq_of_resolver_eq_error {r : Route τ} {v : Option (ParamValue τ)} {e : ConfigError}
    (h : resolver r v = .error e) :
    e = .missingPathParams r.name ∨ e = .pathParamsMismatch r.name := by
  unfold resolver at h
  split at h
  · exact .inl (UrlRule.eq_of_resolve_eq_error h)
  · split at h
    · exact .inl (UrlRule.eq_of_resolve_eq_error h)
    · cases h
      exact .inr rfl

theorem resolver_eq_mismatch {t : Route τ} {v : ParamValue τ} (h : t.path.type? ≠ some v.type) :
    resolver t (some v) = .error (.pathParamsMismatch t.name) := by
  simp only [resolver, PathParams.cast?_eq_none h]

/-- Without path parameters there is nothing of another type. -/
theorem resolver_none_ne_mismatch (t : Route τ) (route : String) :
    resolver t none ≠ .error (.pathParamsMismatch route) :=
  fun h => nomatch UrlRule.eq_of_resolve_eq_error h

/-- Where a resolver has a URL for path parameters, it is that of the rule for them. -/
theorem exists_resolve_of_resolver {t : Route τ} {v : Option (ParamValue τ)} {url : String}
    (h : resolver t v = .ok url) :
    ∃ w, w.map t.path.erase = v ∧ t.rule.resolve t.name w = .ok url := by
  cases v with
  | none => exact ⟨none, rfl, h⟩
  | some v =>
    by_cases ht : t.path.type? = some v.type
    · obtain ⟨w, hw, he⟩ := PathParams.exists_cast?_eq_some ht
      simp only [resolver, hw] at h
      exact ⟨some w, congrArg some he, h⟩
    · rw [resolver_eq_mismatch ht] at h
      cases h

end RouteEntry

namespace SchemaBuilder

/-- What a registration can do: nothing after a failure, fail over an invalid or a repeated name, or
put the entry of the route under its name. -/
theorem register_cases (b : SchemaBuilder τ) (r : Route τ) :
    (∃ e, b.failure = some e ∧ b.register r = b) ∨
    (∃ f, b.failure = none ∧ RouteName.ofString r.name = .error f ∧
      b.register r = { b with failure := some (.invalidRouteName f) }) ∨
    (∃ n : RouteName, b.failure = none ∧ n.text = r.name ∧ b.routes.contains r.name = true ∧
      b.register r = { b with failure := some (.duplicateRoute r.name) }) ∨
    (∃ n : RouteName, b.failure = none ∧ n.text = r.name ∧ b.routes.get? r.name = none ∧
      b.register r =
        { b with
          routes := b.routes.insert r.name (.ofRoute n r)
          log := b.log ++ [registered r] }) := by
  cases hb : b.failure with
  | some e => exact .inl ⟨e, rfl, by simp only [register, hb]⟩
  | none =>
    refine .inr ?_
    cases hn : RouteName.ofString r.name with
    | error f => exact .inl ⟨f, rfl, rfl, by simp only [register, hb, hn]⟩
    | ok n =>
      have ht := RouteName.ofString_eq_ok_iff.1 hn
      refine .inr ?_
      cases hc : b.routes.contains r.name with
      | true => exact .inl ⟨n, rfl, ht, rfl, by simp only [register, hb, hn, ht, hc, if_true]⟩
      | false =>
        have hfree : b.routes.get? r.name = none := by simpa [Table.contains] using hc
        refine .inr ⟨n, rfl, ht, hfree, ?_⟩
        simp only [register, hb, hn, ht, hc]
        rfl

/-- What a builder without a failure holds of the routes that were registered: each route has its
entry under its name, and there are no other entries. -/
def Tracks (b : SchemaBuilder τ) (rs : List (Route τ)) : Prop :=
  b.failure = none →
    (∀ r ∈ rs, ∃ e, b.routes.get? r.name = some e ∧ e.IsOf r) ∧
      ∀ name e, b.routes.get? name = some e → ∃ r ∈ rs, r.name = name ∧ e.IsOf r

theorem Tracks.register {b : SchemaBuilder τ} {rs : List (Route τ)} (h : b.Tracks rs)
    (r : Route τ) : (b.register r).Tracks (rs ++ [r]) := by
  intro hok
  rcases register_cases b r with ⟨e, hb, hr⟩ | ⟨f, -, -, hr⟩ | ⟨n, -, -, -, hr⟩ |
    ⟨n, hb, hn, hfree, hr⟩
  · rw [hr, hb] at hok
    cases hok
  · rw [hr] at hok
    cases hok
  · rw [hr] at hok
    cases hok
  · obtain ⟨hall, honly⟩ := h hb
    have hnew : (RouteEntry.ofRoute n r).IsOf r := ⟨n, hn, rfl⟩
    rw [hr]
    simp only [Table.get?_insert]
    constructor
    · intro q hq
      rcases List.mem_append.1 hq with hq | hq
      · -- an earlier route has another name, since that of the new one was free
        obtain ⟨e, he, hof⟩ := hall q hq
        have hne : r.name ≠ q.name := by
          intro e'
          rw [e', he] at hfree
          cases hfree
        exact ⟨e, by rw [if_neg hne, he], hof⟩
      · rw [List.mem_singleton.1 hq]
        exact ⟨_, if_pos rfl, hnew⟩
    · intro name e he
      split at he
      · next hname =>
        cases he
        exact ⟨r, by simp, hname, hnew⟩
      · obtain ⟨q, hq, hname, hof⟩ := honly name e he
        exact ⟨q, List.mem_append_left _ hq, hname, hof⟩

theorem Tracks.foldl {b : SchemaBuilder τ} {done : List (Route τ)} (h : b.Tracks done)
    (rs : List (Route τ)) : (rs.foldl SchemaBuilder.register b).Tracks (done ++ rs) := by
  induction rs generalizing b done with
  | nil => rwa [List.append_nil]
  | cons r rs ih =>
    rw [List.foldl_cons, List.append_cons]
    exact ih (h.register r)

theorem tracks_empty : (empty : SchemaBuilder τ).Tracks [] := by
  intro _
  constructor
  · intro r hr
    cases hr
  · intro name e he
    cases he

end SchemaBuilder

namespace Schema

/-- Building gives the routes of a builder that has not failed. -/
theorem of_build_eq_ok {b : SchemaBuilder τ} {s : Schema τ} (h : b.build = .ok s) :
    b.failure = none ∧ s.routes = b.routes := by
  unfold SchemaBuilder.build at h
  split at h
  · cases h
  · next hb =>
    cases h
    exact ⟨hb, rfl⟩

/-- A schema of routes holds the entry of each under its name. -/
theorem exists_get?_of_mem {rs : List (Route τ)} {s : Schema τ} (hs : ofRoutes rs = .ok s)
    {r : Route τ} (hr : r ∈ rs) : ∃ e, s.get? r.name = some e ∧ e.IsOf r := by
  obtain ⟨hok, hroutes⟩ := of_build_eq_ok hs
  rw [get?, hroutes]
  exact ((SchemaBuilder.tracks_empty.foldl rs) hok).1 r hr

/-- A schema of routes holds nothing but their entries. -/
theorem exists_mem_of_get? {rs : List (Route τ)} {s : Schema τ} (hs : ofRoutes rs = .ok s)
    {name : String} {e : RouteEntry τ} (he : s.get? name = some e) :
    ∃ r ∈ rs, r.name = name ∧ e.IsOf r := by
  obtain ⟨hok, hroutes⟩ := of_build_eq_ok hs
  rw [get?, hroutes] at he
  exact ((SchemaBuilder.tracks_empty.foldl rs) hok).2 name e he

end Schema
end RestDispatch
