import RestDispatch.Proofs.Call.SharedName

/-!
# What an entry tells of itself

An entry of a schema tells the presence of the path parameters of its route, and the URL where that
is fixed. Its resolver is made from the rule of the route and has forgotten both. `Introspects` says
what has to hold for the one to agree with the other, and `introspects_entries` that it holds of
every entry of a schema: the presence is the one that the rule was built for.
-/

namespace RestDispatch

variable {τ : Type} [ParamTypes τ]

namespace UrlRule

variable {p : PathParams τ}

/-- The URL that the builder of a rule makes of path parameters. -/
def build : UrlRule p → p.Value → String
  | .literal _, v => nomatch v
  | .computed _, v => nomatch v
  | .builder f, v => f v
  | .optionalBuilder f, v => f (some v)

/-- Path parameters that are given are built from. -/
theorem resolve_some (route : String) (rule : UrlRule p) (v : p.Value) :
    rule.resolve route (some v) = .ok (rule.build v) := by
  cases rule with
  | literal | computed => exact nomatch v
  | builder | optionalBuilder => rfl

/-- Only required path parameters are missed, and they always are. -/
theorem resolve_none_cases (route : String) (rule : UrlRule p) :
    p.kind = .required ∧ rule.resolve route none = .error (.missingPathParams route) ∨
      p.kind ≠ .required ∧ ∃ url, rule.resolve route none = .ok url := by
  cases rule with
  | builder => exact .inl ⟨rfl, rfl⟩
  | literal | computed | optionalBuilder => exact .inr ⟨nofun, _, rfl⟩

/-- Only a rule without path parameters has a fixed URL, which is what it resolves to. -/
theorem of_literal?_eq_some {rule : UrlRule p} {url : String} (h : rule.literal? = some url) :
    p.kind = .forbidden ∧ ∀ route, rule.resolve route none = .ok url := by
  cases rule with
  | literal =>
    cases h
    exact ⟨rfl, fun _ => rfl⟩
  | computed | builder | optionalBuilder => cases h

end UrlRule

namespace PathParams

omit [ParamTypes τ] in
/-- Path parameters are forbidden where no type is declared for them. -/
theorem kind_eq_forbidden_iff {p : PathParams τ} : p.kind = .forbidden ↔ p.type? = none := by
  cases p <;> simp [kind, type?]

/-- The values of the declared type are those that carry its name. -/
theorem exists_erase_eq_iff {p : PathParams τ} {v : ParamValue τ} :
    (∃ w, p.erase w = v) ↔ p.type? = some v.type := by
  constructor
  · rintro ⟨w, rfl⟩
    exact p.type?_eq_some w
  · intro h
    obtain ⟨w, -, hw⟩ := exists_cast?_eq_some h
    exact ⟨w, hw⟩

end PathParams

namespace RouteEntry

/-- Whether what an entry tells of the path parameters and the URL of a route is what its resolver
does. -/
structure Introspects (e : RouteEntry τ) (r : Route τ) : Prop where
  /-- Path parameters are told to be required if there is no URL without them. -/
  required_iff : e.path = .required ↔ ∃ f, e.resolve none = .error f
  /-- Then they are missing, from this route. -/
  missing : ∀ f, e.resolve none = .error f → f = .missingPathParams r.name
  /-- Where they are told to be forbidden, values of any type are refused, and there is a URL
  without any. -/
  forbidden : e.path = .forbidden →
    (∀ v, e.resolve (some v) = .error (.pathParamsMismatch r.name)) ∧
      ∃ url, e.resolve none = .ok url
  /-- Where they are not, a route has a type for them, and values of this type have a URL, and no
  others. -/
  given_iff : e.path ≠ .forbidden → ∃ t, r.path.type? = some t ∧
    ∀ v, (∃ url, e.resolve (some v) = .ok url) ↔ v.type = t
  /-- This URL is the one that the rule of the route builds from the value. -/
  built : ∀ v url, e.resolve (some v) = .ok url →
    ∃ w : r.path.Value, r.path.erase w = v ∧ url = r.rule.build w
  /-- A URL that is told to be fixed is the one without path parameters, which then are
  forbidden. -/
  literal : ∀ url, e.literalUrl = some url → e.path = .forbidden ∧ e.resolve none = .ok url

/-- A resolver has a URL for the values of the declared type, which is the one that is built. -/
theorem resolver_some_eq_ok_iff {r : Route τ} {v : ParamValue τ} {url : String} :
    resolver r (some v) = .ok url ↔ ∃ w, r.path.erase w = v ∧ url = r.rule.build w := by
  constructor
  · intro h
    obtain ⟨_ | w, hw, hr⟩ := exists_resolve_of_resolver h
    · cases hw
    · rw [UrlRule.resolve_some] at hr
      cases hr
      exact ⟨w, Option.some.inj hw, rfl⟩
  · rintro ⟨w, rfl, rfl⟩
    exact (resolver_map_erase r (some w)).trans (UrlRule.resolve_some r.name r.rule w)

/-- The entry of a route tells what its resolver does. -/
theorem introspects_ofRoute (n : RouteName) (r : Route τ) : (ofRoute n r).Introspects r where
  required_iff := by
    rcases r.rule.resolve_none_cases r.name with ⟨hk, hr⟩ | ⟨hk, url, hr⟩
    · exact ⟨fun _ => ⟨_, hr⟩, fun _ => hk⟩
    · exact ⟨fun h => absurd h hk, fun ⟨f, hf⟩ => nomatch hr.symm.trans hf⟩
  missing f hf := UrlRule.eq_of_resolve_eq_error hf
  forbidden h := by
    have htype := PathParams.kind_eq_forbidden_iff.1 h
    refine ⟨fun v => resolver_eq_mismatch (by simp [htype]), ?_⟩
    rcases r.rule.resolve_none_cases r.name with ⟨hk, -⟩ | ⟨-, hr⟩
    · cases hk.symm.trans h
    · exact hr
  given_iff h := by
    obtain ⟨t, ht⟩ := Option.ne_none_iff_exists'.1 (mt PathParams.kind_eq_forbidden_iff.2 h)
    refine ⟨t, ht, fun v => ?_⟩
    calc (∃ url, resolver r (some v) = .ok url)
        ↔ ∃ w, r.path.erase w = v := by
          simp only [resolver_some_eq_ok_iff]
          exact ⟨fun ⟨_, w, hw, _⟩ => ⟨w, hw⟩, fun ⟨w, hw⟩ => ⟨_, w, hw, rfl⟩⟩
      _ ↔ v.type = t := by rw [PathParams.exists_erase_eq_iff, ht, Option.some.injEq, eq_comm]
  built _ _ := resolver_some_eq_ok_iff.1
  literal url h := by
    obtain ⟨hk, hr⟩ := UrlRule.of_literal?_eq_some h
    exact ⟨hk, hr r.name⟩

end RouteEntry

/-- **Entries tell what they do.** Whatever rule and path parameters a route has, its entry tells
the presence of the path parameters and the fixed URL as its resolver treats them. In a schema this
is so of the entry under the name of every route, and there are no other entries. -/
theorem Schema.introspects_entries :
    (∀ (n : RouteName) (r : Route τ), (RouteEntry.ofRoute n r).Introspects r) ∧
    ∀ (rs : List (Route τ)) (s : Schema τ), Schema.ofRoutes rs = .ok s →
      (∀ r ∈ rs, ∃ e, s.get? r.name = some e ∧ e.name.text = r.name ∧ e.Introspects r) ∧
      ∀ name e, s.get? name = some e → ∃ r ∈ rs, r.name = name ∧ e.Introspects r := by
  refine ⟨RouteEntry.introspects_ofRoute, fun rs s hs => ⟨fun r hr => ?_, fun name e he => ?_⟩⟩
  · obtain ⟨e, he, n, hn, rfl⟩ := exists_get?_of_mem hs hr
    exact ⟨_, he, hn, RouteEntry.introspects_ofRoute n r⟩
  · obtain ⟨r, hr, hname, n, -, rfl⟩ := exists_mem_of_get? hs he
    exact ⟨r, hr, hname, RouteEntry.introspects_ofRoute n r⟩

/-- The entry of a route that requires a number tells so, and that of a route with a fixed URL tells
this. -/
theorem Schema.introspects_entries_users :
    ∃ s e e', Schema.ofRoutes [Call.getUser, Call.listUsers] = .ok s ∧
      s.get? "users.get" = some e ∧ e.path = .required ∧
      e.resolve none = .error (.missingPathParams "users.get") ∧
      s.get? "users.list" = some e' ∧ e'.literalUrl = some "users" ∧
      e'.resolve none = .ok "users" := by
  have hs : Schema.ofRoutes [Call.getUser, Call.listUsers] = .ok _ := rfl
  have hall := (introspects_entries.2 _ _ hs).1
  obtain ⟨e, he, -, hof⟩ := hall Call.getUser (by simp)
  obtain ⟨e', he', -, hof'⟩ := hall Call.listUsers (by simp)
  have hpath : e.path = .required := by
    cases he
    rfl
  have hurl : e'.literalUrl = some "users" := by
    cases he'
    rfl
  obtain ⟨f, hf⟩ := hof.required_iff.1 hpath
  exact ⟨_, e, e', hs, he, hpath, hof.missing f hf ▸ hf, he', hurl, (hof'.literal _ hurl).2⟩

end RestDispatch
