import Mathlib.Data.List.Nodup
import RestDispatch.Proofs.Schema.Registration
import RestDispatch.Proofs.Text.ByteOrder

/-!
# Schemas that can be built

Which lists of routes make a schema, and which schema they make. Routes can be registered one after
the other if their names are valid and no two are the same (`WellNamed`); otherwise the first route
that breaks this decides what is wrong with the list (`FirstOffence`), and `Judges` is the invariant
of a builder that says so. `holds_or_firstOffence` puts this together with what a schema holds, which
does not depend on the order of its routes.
-/

namespace RestDispatch

variable {τ : Type} [ParamTypes τ]

namespace RouteName

theorem ofString_eq_error_iff {s : String} {f : RouteNameFault} :
    ofString s = .error f ↔ fault? s = some f := by
  unfold ofString
  split
  · next h => simp [h]
  · next h => simp [h]

theorem eq_of_text_eq {m n : RouteName} (h : m.text = n.text) : m = n := by
  cases m
  cases n
  cases h
  rfl

end RouteName

/-- A route has one entry. -/
theorem RouteEntry.IsOf.unique {e e' : RouteEntry τ} {r : Route τ} (h : e.IsOf r)
    (h' : e'.IsOf r) : e = e' := by
  obtain ⟨n, hn, rfl⟩ := h
  obtain ⟨n', hn', rfl⟩ := h'
  rw [RouteName.eq_of_text_eq (hn.trans hn'.symm)]

/-! ### Names -/

/-- Routes with valid names, no two of them the same. -/
structure WellNamed (rs : List (Route τ)) : Prop where
  valid : ∀ r ∈ rs, RouteName.fault? r.name = none
  distinct : (rs.map Route.name).Nodup

/-- What is wrong with a route after others: it has no valid name, or the name of one of them. -/
inductive Offends (done : List (Route τ)) (r : Route τ) : ConfigError → Prop
  | invalid {f : RouteNameFault} (hf : RouteName.fault? r.name = some f) :
      Offends done r (.invalidRouteName f)
  | repeated (hv : RouteName.fault? r.name = none) (hm : r.name ∈ done.map Route.name) :
      Offends done r (.duplicateRoute r.name)

/-- What is wrong with the first route that does not go with those before it. -/
def FirstOffence (rs : List (Route τ)) (e : ConfigError) : Prop :=
  ∃ before r after, rs = before ++ r :: after ∧ WellNamed before ∧ Offends before r e

theorem wellNamed_nil : WellNamed ([] : List (Route τ)) :=
  ⟨fun _ h => absurd h List.not_mem_nil, List.nodup_nil⟩

theorem WellNamed.append_singleton {rs : List (Route τ)} (h : WellNamed rs) {r : Route τ}
    (hv : RouteName.fault? r.name = none) (hm : r.name ∉ rs.map Route.name) :
    WellNamed (rs ++ [r]) := by
  refine ⟨fun q hq => ?_, ?_⟩
  · rcases List.mem_append.1 hq with hq | hq
    · exact h.valid q hq
    · rw [List.mem_singleton.1 hq]
      exact hv
  · rw [List.map_append, List.map_singleton, ← List.concat_eq_append]
    exact h.distinct.concat hm

theorem WellNamed.perm {rs rs' : List (Route τ)} (h : WellNamed rs) (hp : rs.Perm rs') :
    WellNamed rs' :=
  ⟨fun r hr => h.valid r (hp.mem_iff.2 hr), (hp.map _).nodup_iff.1 h.distinct⟩

theorem WellNamed.sublist {rs rs' : List (Route τ)} (h : WellNamed rs) (hs : rs'.Sublist rs) :
    WellNamed rs' :=
  ⟨fun r hr => h.valid r (hs.subset hr), (hs.map _).nodup h.distinct⟩

/-- Routes that go together contain none that offends against those before it. -/
theorem WellNamed.not_offends {before after : List (Route τ)} {r : Route τ} {e : ConfigError}
    (h : WellNamed (before ++ r :: after)) : ¬ Offends before r e := by
  intro ho
  have hr : r ∈ before ++ r :: after := List.mem_append_right _ List.mem_cons_self
  cases ho with
  | invalid hf =>
    rw [h.valid r hr] at hf
    cases hf
  | repeated _ hm =>
    have hd := h.distinct
    rw [List.map_append, List.map_cons, List.nodup_append] at hd
    exact hd.2.2 _ hm _ List.mem_cons_self rfl

theorem Offends.unique {done : List (Route τ)} {r : Route τ} {e e' : ConfigError}
    (h : Offends done r e) (h' : Offends done r e') : e = e' := by
  cases h with
  | invalid hf =>
    cases h' with
    | invalid hf' => rw [Option.some.inj (hf.symm.trans hf')]
    | repeated hv' _ => cases hf.symm.trans hv'
  | repeated hv _ =>
    cases h' with
    | invalid hf' => cases hv.symm.trans hf'
    | repeated _ _ => rfl

/-- Only one thing is the first that is wrong with a list of routes. -/
theorem FirstOffence.unique {rs : List (Route τ)} {e e' : ConfigError} (h : FirstOffence rs e)
    (h' : FirstOffence rs e') : e = e' := by
  obtain ⟨before, r, after, rfl, hw, ho⟩ := h
  obtain ⟨before', r', after', heq, hw', ho'⟩ := h'
  -- of two routes that offend, an earlier one would stand among the routes before the other
  rcases List.append_eq_append_iff.1 heq with ⟨between, hb, ha⟩ | ⟨between, hb, ha⟩
  · cases between with
    | nil =>
      cases ha
      rw [hb, List.append_nil] at ho'
      exact ho.unique ho'
    | cons q qs =>
      cases ha
      rw [hb] at hw'
      exact absurd ho hw'.not_offends
  · cases between with
    | nil =>
      cases ha
      rw [hb, List.append_nil] at ho
      exact ho.unique ho'
    | cons q qs =>
      cases ha
      rw [hb] at hw
      exact absurd ho' hw.not_offends

theorem FirstOffence.not_wellNamed {rs : List (Route τ)} {e : ConfigError}
    (h : FirstOffence rs e) : ¬ WellNamed rs := by
  obtain ⟨before, r, after, rfl, -, ho⟩ := h
  exact fun hw => hw.not_offends ho

/-! ### Builders -/

namespace SchemaBuilder

/-- Where a builder stands after routes: they go together, or it has failed over the first that does
not. -/
def Judges (b : SchemaBuilder τ) (rs : List (Route τ)) : Prop :=
  match b.failure with
  | none => WellNamed rs
  | some e => FirstOffence rs e

theorem judges_empty : (empty : SchemaBuilder τ).Judges [] := wellNamed_nil

theorem Judges.register {b : SchemaBuilder τ} {rs : List (Route τ)} (h : b.Judges rs)
    (ht : b.Tracks rs) (r : Route τ) : (b.register r).Judges (rs ++ [r]) := by
  unfold Judges at h
  rcases register_cases b r with ⟨e, hb, hr⟩ | ⟨f, hb, hf, hr⟩ | ⟨n, hb, hn, hc, hr⟩ |
    ⟨n, hb, hn, hfree, hr⟩ <;> rw [hb] at h <;> rw [Judges, hr]
  · -- the first offence is still the first
    rw [hb]
    obtain ⟨before, q, after, rfl, hw, ho⟩ := h
    exact ⟨before, q, after ++ [r], by simp, hw, ho⟩
  · exact ⟨rs, r, [], rfl, h, .invalid (RouteName.ofString_eq_error_iff.1 hf)⟩
  · -- a name that is taken is that of a route before
    obtain ⟨e, he⟩ := Option.isSome_iff_exists.1 hc
    obtain ⟨q, hq, hname, -⟩ := (ht hb).2 _ e he
    exact ⟨rs, r, [], rfl, h, .repeated (hn ▸ n.valid) (List.mem_map.2 ⟨q, hq, hname⟩)⟩
  · simp only [hb]
    refine h.append_singleton (hn ▸ n.valid) fun hm => ?_
    obtain ⟨q, hq, hname⟩ := List.mem_map.1 hm
    obtain ⟨e, he, -⟩ := (ht hb).1 q hq
    rw [hname, hfree] at he
    cases he

theorem Judges.foldl {b : SchemaBuilder τ} {done : List (Route τ)} (h : b.Judges done)
    (ht : b.Tracks done) (rs : List (Route τ)) :
    (rs.foldl SchemaBuilder.register b).Judges (done ++ rs) := by
  induction rs generalizing b done with
  | nil => rwa [List.append_nil]
  | cons r rs ih =>
    rw [List.foldl_cons, List.append_cons]
    exact ih (h.register ht r) (ht.register r)

end SchemaBuilder

namespace Schema

/-- A list of routes makes a schema and goes together, or it makes none and something is the first
that is wrong with it. -/
theorem ofRoutes_cases (rs : List (Route τ)) :
    (∃ s, ofRoutes rs = .ok s ∧ WellNamed rs) ∨ ∃ e, ofRoutes rs = .error e ∧ FirstOffence rs e := by
  have h : (builderOf rs).Judges rs :=
    SchemaBuilder.judges_empty.foldl SchemaBuilder.tracks_empty rs
  unfold SchemaBuilder.Judges at h
  unfold ofRoutes SchemaBuilder.build
  cases hf : (builderOf rs).failure with
  | none =>
    rw [hf] at h
    exact .inl ⟨_, rfl, h⟩
  | some e =>
    rw [hf] at h
    exact .inr ⟨e, rfl, h⟩

theorem exists_ofRoutes_iff {rs : List (Route τ)} : (∃ s, ofRoutes rs = .ok s) ↔ WellNamed rs := by
  constructor
  · rintro ⟨s, hs⟩
    rcases ofRoutes_cases rs with ⟨-, -, h⟩ | ⟨e, he, -⟩
    · exact h
    · cases he.symm.trans hs
  · intro h
    rcases ofRoutes_cases rs with ⟨s, hs, -⟩ | ⟨e, -, he⟩
    · exact ⟨s, hs⟩
    · exact absurd h he.not_wellNamed

theorem ofRoutes_eq_error_iff {rs : List (Route τ)} {e : ConfigError} :
    ofRoutes rs = .error e ↔ FirstOffence rs e := by
  constructor
  · intro h
    rcases ofRoutes_cases rs with ⟨s, hs, -⟩ | ⟨e', he', hf⟩
    · cases hs.symm.trans h
    · cases he'.symm.trans h
      exact hf
  · intro h
    rcases ofRoutes_cases rs with ⟨s, -, hw⟩ | ⟨e', he', hf⟩
    · exact absurd hw h.not_wellNamed
    · rw [he', hf.unique h]

/-! ### What a schema holds -/

theorem get?_eq_some_iff {rs : List (Route τ)} {s : Schema τ} (hs : ofRoutes rs = .ok s)
    {name : String} {e : RouteEntry τ} :
    s.get? name = some e ↔ ∃ r ∈ rs, r.name = name ∧ e.IsOf r := by
  constructor
  · exact exists_mem_of_get? hs
  · rintro ⟨r, hr, rfl, he⟩
    obtain ⟨e', hget, he'⟩ := exists_get?_of_mem hs hr
    rw [hget, he'.unique he]

theorem mem_names_iff {rs : List (Route τ)} {s : Schema τ} (hs : ofRoutes rs = .ok s)
    {name : String} : name ∈ s.names ↔ name ∈ rs.map Route.name := by
  rw [names, Table.mem_keys_iff, List.mem_map]
  constructor
  · rintro ⟨e, he⟩
    obtain ⟨r, hr, hname, -⟩ := exists_mem_of_get? hs he
    exact ⟨r, hr, hname⟩
  · rintro ⟨r, hr, rfl⟩
    obtain ⟨e, he, -⟩ := exists_get?_of_mem hs hr
    exact ⟨e, he⟩

theorem size_eq {rs : List (Route τ)} {s : Schema τ} (hs : ofRoutes rs = .ok s) :
    s.size = rs.length := by
  have hw := exists_ofRoutes_iff.1 ⟨s, hs⟩
  have hperm : s.names.Perm (rs.map Route.name) :=
    (List.perm_ext_iff_of_nodup s.routes.nodup_keys hw.distinct).2 fun _ => mem_names_iff hs
  calc s.size = s.names.length := (List.length_map _).symm
    _ = (rs.map Route.name).length := hperm.length_eq
    _ = rs.length := List.length_map _

/-- The order of the routes does not matter to the schema. -/
theorem ofRoutes_perm {rs rs' : List (Route τ)} {s : Schema τ} (hs : ofRoutes rs = .ok s)
    (hp : rs.Perm rs') : ofRoutes rs' = .ok s := by
  obtain ⟨s', hs'⟩ := exists_ofRoutes_iff.2 ((exists_ofRoutes_iff.1 ⟨s, hs⟩).perm hp)
  have hget (name : String) : s'.get? name = s.get? name := by
    refine Option.ext fun e => ?_
    rw [get?_eq_some_iff hs, get?_eq_some_iff hs']
    simp only [hp.mem_iff]
  have heq : s' = s := by
    cases s
    cases s'
    exact congrArg Schema.mk (Table.ext_get? hget)
  rw [hs', heq]

/-- What a schema of routes is: the entry of each route under its name, which is that of the entry,
and nothing else; the names in the order of their octets; and as many entries as routes. -/
structure Holds (s : Schema τ) (rs : List (Route τ)) : Prop where
  entry : ∀ r ∈ rs, ∃ n : RouteName, n.text = r.name ∧ s.get? r.name = some (.ofRoute n r)
  only : ∀ name ∉ rs.map Route.name, s.get? name = none
  key : ∀ name e, s.get? name = some e → e.name.text = name
  increasing : s.names.Pairwise fun a b => Utf8.encode a < Utf8.encode b
  mem_names : ∀ name, name ∈ s.names ↔ name ∈ rs.map Route.name
  size : s.size = rs.length

theorem holds_of_ofRoutes {rs : List (Route τ)} {s : Schema τ} (hs : ofRoutes rs = .ok s) :
    s.Holds rs where
  entry := by
    intro r hr
    obtain ⟨e, he, n, hn, rfl⟩ := exists_get?_of_mem hs hr
    exact ⟨n, hn, he⟩
  only := by
    intro name hname
    cases he : s.get? name with
    | none => rfl
    | some e =>
      obtain ⟨r, hr, h, -⟩ := exists_mem_of_get? hs he
      exact absurd (List.mem_map.2 ⟨r, hr, h⟩) hname
  key := by
    intro name e he
    obtain ⟨r, -, hname, n, hn, rfl⟩ := exists_mem_of_get? hs he
    exact hn.trans hname
  increasing := s.routes.increasing_keys.imp Utf8.encode_lt
  mem_names := fun _ => mem_names_iff hs
  size := size_eq hs

/-- **Building a schema.** Routes make a schema exactly when their names are valid and distinct. The
schema holds their entries and is the same for every order of them; where there is none, the error
is about the first route that does not go with those before it, whatever comes after. -/
theorem holds_or_firstOffence (rs : List (Route τ)) :
    ((∃ s, ofRoutes rs = .ok s) ↔
        (∀ r ∈ rs, RouteName.fault? r.name = none) ∧ (rs.map Route.name).Nodup) ∧
      (∀ s, ofRoutes rs = .ok s → s.Holds rs ∧ ∀ rs', rs.Perm rs' → ofRoutes rs' = .ok s) ∧
      ∀ e, ofRoutes rs = .error e ↔ FirstOffence rs e := by
  refine ⟨exists_ofRoutes_iff.trans ⟨fun h => ⟨h.valid, h.distinct⟩, fun h => ⟨h.1, h.2⟩⟩, ?_, ?_⟩
  · exact fun s hs => ⟨holds_of_ofRoutes hs, fun _ => ofRoutes_perm hs⟩
  · exact fun _ => ofRoutes_eq_error_iff

instance : ParamTypes Empty := ⟨fun _ => Empty, inferInstance⟩

/-- A route to a fixed URL, which takes nothing. -/
def fixedRoute (name url : String) : Route Empty where
  name := name
  method := .get
  path := .forbidden
  rule := .literal url
  query := .forbidden
  data := .forbidden
  response := .empty
  defaultQuery := .empty

/-- Two routes make a schema in either order, and a name that comes again is told before an empty one
after it. -/
theorem holds_users_feed :
    (∃ s, ofRoutes [fixedRoute "users" "u", fixedRoute "feed" "f"] = .ok s ∧
        s.Holds [fixedRoute "users" "u", fixedRoute "feed" "f"] ∧
        ofRoutes [fixedRoute "feed" "f", fixedRoute "users" "u"] = .ok s) ∧
      ofRoutes [fixedRoute "users" "u", fixedRoute "feed" "f", fixedRoute "users" "v",
        fixedRoute "" "w"] = .error (.duplicateRoute "users") := by
  have hw : WellNamed [fixedRoute "users" "u", fixedRoute "feed" "f"] := ⟨by decide, by decide⟩
  refine ⟨?_, ?_⟩
  · have h := holds_or_firstOffence [fixedRoute "users" "u", fixedRoute "feed" "f"]
    obtain ⟨s, hs⟩ := h.1.2 ⟨hw.valid, hw.distinct⟩
    exact ⟨s, hs, (h.2.1 s hs).1, (h.2.1 s hs).2 _ (.swap _ _ _)⟩
  · refine ((holds_or_firstOffence _).2.2 _).2 ⟨[_, _], fixedRoute "users" "v", [_], rfl, hw, ?_⟩
    exact .repeated (by decide) (by decide)

end Schema
end RestDispatch
