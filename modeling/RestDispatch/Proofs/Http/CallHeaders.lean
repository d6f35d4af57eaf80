import RestDispatch.Proofs.Http.Admission

/-!
# The headers of a call

The headers of a request come from four places: the user of its URL, its body, the call, and the
defaults of the transport. The defaults give way to what the call names, but what stems from the
user and from the body does not: `values_eq_iff` says that exactly those two stand beside the values
of a call.
-/

namespace RestDispatch

/-- The values that the options of a call give to a header, told without regard to case. -/
def HttpOptions.values (o : HttpOptions) (name : String) : List String :=
  (o.headers.filter fun p => Header.fold p.1 == Header.fold name).map Prod.snd

namespace Header

/-- A pair that is a header keeps its value, and its name but for the case. -/
theorem eq_of_ofPair {p : String × String} {h : Header} (hp : ofPair p = .ok h) :
    h = ⟨fold p.1, p.2⟩ := by
  unfold ofPair at hp
  dsimp only at hp
  split at hp
  · cases hp
  · split at hp
    · cases hp
    · cases hp
      rfl

/-- The headers of a call have the values that its options give. -/
theorem values_of_forall₂ {ps : List (String × String)} {hs : List Header}
    (h : List.Forall₂ (fun p h => ofPair p = .ok h) ps hs) (name : String) :
    values (fold name) hs = (ps.filter fun p => fold p.1 == fold name).map Prod.snd := by
  induction h with
  | nil => rfl
  | @cons p h ps hs hp _ ih =>
    cases eq_of_ofPair hp
    rw [values, List.filter_cons, List.filter_cons]
    split
    · exact congrArg (p.2 :: ·) ih
    · exact ih

end Header

namespace WireRequest

/-- The values that a request has under a name of itself: the user of its URL gives it an
authorization, and its body a type. -/
theorem values_ownHeaders (name : String) (u : Url) (body : Option Json) :
    Header.values name (ownHeaders u body) =
      (if name = "authorization" then
        ((user? u).map fun p => (authorization p.1 p.2).value).toList else []) ++
      if name = "content-type" then (body.map fun _ => "application/json").toList else [] := by
  rw [ownHeaders, Header.values_append]
  congr 1
  · cases user? u with
    | none => split <;> rfl
    | some p =>
      rw [Option.map_some, Option.toList_some, Header.values_singleton]
      exact if_congr eq_comm rfl rfl
  · cases body with
    | none => split <;> rfl
    | some v =>
      rw [Option.map_some, Option.toList_some, Header.values_singleton]
      exact if_congr eq_comm rfl rfl

/-- A request has no value of itself under a name, unless that is the name of the header that its
user or its body needs. -/
theorem values_ownHeaders_eq_nil_iff {name : String} {u : Url} {body : Option Json} :
    Header.values name (ownHeaders u body) = [] ↔
      ¬ (name = "authorization" ∧ (user? u).isSome = true) ∧
        ¬ (name = "content-type" ∧ body.isSome = true) := by
  rw [values_ownHeaders, List.append_eq_nil_iff]
  refine and_congr ?_ ?_
  · cases user? u <;> simp
  · cases body <;> simp

/-- Under a name that the call names, a request has its own values and then those of the call, and
no default of the transport. -/
theorem values_compose {r : Request} {u : Url} {hs defaults : List Header} {name : String}
    (h : Header.values name hs ≠ []) :
    Header.values name (compose r u hs defaults).headers =
      Header.values name (ownHeaders u r.body) ++ Header.values name hs := by
  -- the defaults are left out because the call has the name, not because of the user or the body
  have hhas : Header.has name (ownHeaders u r.body ++ hs) = true := by
    rw [Header.has_eq_true_iff, Header.values_append]
    exact fun e => h (List.append_eq_nil_iff.1 e).2
  rw [compose, Header.values_fill, if_pos hhas, List.append_nil, Header.values_append]

end WireRequest

namespace HttpTransport

/-- **The headers of a call.** Under a name that the options of a call give, a request is sent with
the values of the options in their order, behind those that the request has of itself; no default
header of that name is sent. So the values are those of the options exactly if the name is neither
that of the authorization of a URL with a user nor that of the type of a body. -/
theorem values_eq_iff [DomainNames] {net : Network} {t : HttpTransport} {r : Request}
    {options : HttpOptions} {w : WireRequest} (h : (t.run net r options).attempted = some w)
    {name : String} (hn : options.values name ≠ []) :
    ∃ q u hs, t.Admits r options.headers q u hs ∧
      Header.values (Header.fold name) w.headers =
        Header.values (Header.fold name) (WireRequest.ownHeaders u q.body) ++ options.values name ∧
      (Header.values (Header.fold name) w.headers = options.values name ↔
        ¬ (Header.fold name = "authorization" ∧ (WireRequest.user? u).isSome = true) ∧
          ¬ (Header.fold name = "content-type" ∧ q.body.isSome = true)) := by
  obtain ⟨q, u, hs, ha, rfl, -⟩ := attempted_eq_some_iff.1 h
  have hcall : Header.values (Header.fold name) hs = options.values name :=
    Header.values_of_forall₂ ha.headed name
  have hvalues : Header.values (Header.fold name)
      (WireRequest.compose q u hs t.defaultHeaders).headers =
      Header.values (Header.fold name) (WireRequest.ownHeaders u q.body) ++ options.values name :=
    hcall ▸ WireRequest.values_compose (hcall ▸ hn)
  refine ⟨q, u, hs, ha, hvalues, ?_⟩
  rw [hvalues, List.append_left_eq_self, WireRequest.values_ownHeaders_eq_nil_iff]

/-- The options of a call that names a header twice, in two spellings. -/
def acceptOptions : HttpOptions :=
  (HttpOptions.none.withHeader "Accept" "text/plain").withHeader "ACCEPT" "text/csv"

/-- What a call accepts takes the place of what the transport accepts. -/
theorem values_accept :
    let t := { ofUrl apiBase with defaultHeaders := [⟨"accept", "text/html"⟩] }
    acceptOptions.values "Accept" ≠ [] ∧
      ∃ w, (t.run (fun _ _ => .unreachable) (getRequest "users") acceptOptions).attempted = some w ∧
        Header.values "accept" w.headers = ["text/plain", "text/csv"] := by
  intro t
  have hn : acceptOptions.values "Accept" ≠ [] := by decide +kernel
  have hsent : (t.run (fun _ _ => .unreachable) (getRequest "users") acceptOptions).attempted.isSome
      = true := by decide +kernel
  obtain ⟨w, hw⟩ := Option.isSome_iff_exists.1 hsent
  obtain ⟨q, u, hs, -, -, hiff⟩ := values_eq_iff hw hn
  have hvalues := hiff.2 ⟨fun h => absurd h.1 (by decide +kernel),
    fun h => absurd h.1 (by decide +kernel)⟩
  exact ⟨hn, w, hw, hvalues⟩

/-- A patch whose call says what its body is. -/
def patchRequest : Request :=
  { getRequest "users/1" with method := .patch, body := some (.object []) }

/-- The options of that call. -/
def patchOptions : HttpOptions :=
  HttpOptions.none.withHeader "Content-Type" "application/merge-patch+json"

/-- The type of a body is sent beside the type that the call names. -/
theorem values_patch :
    (run (fun _ _ => .unreachable) (ofUrl apiBase) patchRequest patchOptions).attempted.map
        (fun w => Header.values "content-type" w.headers) =
      some ["application/json", "application/merge-patch+json"] ∧
    patchOptions.values "content-type" = ["application/merge-patch+json"] := by
  decide +kernel

end HttpTransport
end RestDispatch
