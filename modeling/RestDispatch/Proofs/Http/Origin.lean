import RestDispatch.Proofs.Http.Stages
import RestDispatch.Proofs.Url.Reference
import RestDispatch.Url.Ascii

/-!
# Where calls go

The origin of a URL is its scheme, user, host and port. A transport refuses texts that begin with a
slash or can stand by themselves, but a text that counts as beginning with two slashes may begin
with something else: a backslash, or a control character that does not count. `sameOrigin_iff` says
that only such a text takes a call to another origin, and to which.
-/

namespace RestDispatch

/-- Whether two URLs have the scheme, the user, the host and the port in common. -/
def Url.SameOrigin (u v : Url) : Prop := u.scheme = v.scheme ∧ u.authority = v.authority

instance (u v : Url) : Decidable (u.SameOrigin v) :=
  inferInstanceAs (Decidable (u.scheme = v.scheme ∧ u.authority = v.authority))

theorem Url.kind_eq_web {u : Url} (h : u.scheme = "http" ∨ u.scheme = "https") :
    u.kind = .web := by
  rcases h with h | h <;> rw [kind, h] <;> rfl

namespace HttpTransport

/-! ### Joined requests -/

/-- A request whose URL is joined: the text begins with no slash, cannot stand by itself, and is one
relative to the base. -/
theorem joinRelative_eq_ok_iff [DomainNames] {base u : Url} {r : Request} :
    joinRelative base r = .ok u ↔
      r.url.toList.head? ≠ some '/' ∧ (∀ v, Url.parse r.url ≠ .ok v) ∧ base.join r.url = .ok u := by
  have hparse : (Url.parse r.url).isOk = true ↔ ∃ v, Url.parse r.url = .ok v := by
    cases Url.parse r.url <;> simp [Except.isOk, Except.toBool]
  unfold joinRelative
  split
  · next h =>
    refine ⟨(nomatch ·), fun ⟨hs, hp, _⟩ => ?_⟩
    obtain ⟨v, hv⟩ := hparse.1 (h.resolve_left hs)
    exact absurd hv (hp v)
  · next h =>
    rw [not_or, hparse, not_exists] at h
    rw [and_iff_right h.1, and_iff_right h.2, mapError_eq_ok_iff]

/-- What a request comes to under a base of the web: a text that names an authority is read under
the scheme of the base, and any other keeps the origin of the base. -/
theorem joinRelative_cases [DomainNames] {base u : Url} (hb : base.kind = .web) {r : Request}
    (h : joinRelative base r = .ok u) :
    (Url.namesAuthority r.url = true ∧ Url.parseUnder base.scheme r.url = .ok u) ∨
      (Url.namesAuthority r.url = false ∧ u.scheme = base.scheme ∧
        u.authority = base.authority ∧
        u.path.toList = Url.pathUnder base (Url.relativePart r.url)) := by
  obtain ⟨-, hp, hj⟩ := joinRelative_eq_ok_iff.1 h
  exact Url.join_cases hb hp hj

/-! ### Exchanges -/

/-- An exchange is attempted with the URL that is joined, the query of the request and no user. -/
theorem url_of_attempted [DomainNames] {net : Network} {t : HttpTransport} {r q : Request} {u : Url}
    {options : HttpOptions} {log : Log} (hi : t.interceptors.apply r = (q, .ok (), log))
    (hj : joinRelative t.baseUrl q = .ok u) {w : WireRequest}
    (h : (t.run net r options).attempted = some w) :
    w.url = (WireRequest.withoutUser u).withPairs q.query.entries := by
  have hends := run_ends net t r options
  generalize t.run net r options = done at hends h
  cases hends with
  | exchanged hi' hj' _ hw =>
    cases hi.symm.trans hi'
    cases hj.symm.trans hj'
    cases h
    rw [hw]
    rfl
  | rejected | refused | badHeader | unsendable => cases h

/-- **The origin of a call.** A request that gets past the interceptors and the check of its URL
goes to the origin of the base unless its URL names an authority; then it goes to the URL that the
text is under the scheme of the base, which has the origin of the base only if it names it. -/
theorem sameOrigin_iff [DomainNames] {t : HttpTransport}
    (hb : t.baseUrl.scheme = "http" ∨ t.baseUrl.scheme = "https") {r q : Request} {log : Log}
    {u : Url} (hi : t.interceptors.apply r = (q, .ok (), log))
    (hj : joinRelative t.baseUrl q = .ok u) (net : Network) (options : HttpOptions) :
    (u.SameOrigin t.baseUrl ↔
        (Url.namesAuthority q.url = true →
          ∃ v, Url.parseUnder t.baseUrl.scheme q.url = .ok v ∧ v.SameOrigin t.baseUrl)) ∧
      (Url.namesAuthority q.url = true → Url.parseUnder t.baseUrl.scheme q.url = .ok u) ∧
      ∀ w, (t.run net r options).attempted = some w →
        w.url = (WireRequest.withoutUser u).withPairs q.query.entries := by
  refine ⟨?_, ?_, fun w hw => url_of_attempted hi hj hw⟩
  · rcases joinRelative_cases (Url.kind_eq_web hb) hj with ⟨hn, hu⟩ | ⟨hn, hs, ha, -⟩
    · constructor
      · exact fun h _ => ⟨u, hu, h⟩
      · intro h
        obtain ⟨v, hv, ho⟩ := h hn
        cases hu.symm.trans hv
        exact ho
    · exact ⟨fun _ h => (by rw [hn] at h; cases h), fun _ => ⟨hs, ha⟩⟩
  · intro hn
    rcases joinRelative_cases (Url.kind_eq_web hb) hj with ⟨-, hu⟩ | ⟨hn', -⟩
    · exact hu
    · rw [hn] at hn'; cases hn'

/-! ### A base with a path -/

/-- A base under the path `/v1/` of a host. -/
def apiBase : Url := ⟨"https", some ⟨"", "", .name "api.example.com", none⟩, "/v1/", none, none⟩

/-- A request for a URL. -/
def getRequest (url : String) : Request := ⟨"test", .get, url, .empty, none⟩

/-- A plain text stays with the host of the base. -/
theorem sameOrigin_users :
    joinRelative apiBase (getRequest "users/1") = .ok { apiBase with path := "/v1/users/1" } ∧
      Url.SameOrigin { apiBase with path := "/v1/users/1" } apiBase :=
  have hj : joinRelative apiBase (getRequest "users/1") =
      .ok { apiBase with path := "/v1/users/1" } := by rfl
  ⟨hj, (sameOrigin_iff (t := ofUrl apiBase) (.inr rfl) (r := getRequest "users/1") rfl hj
    (fun _ _ => .unreachable) .none).1.2 fun hn => absurd hn (by decide +kernel)⟩

/-- Two backslashes take a call to the host that the text names. -/
theorem attempted_backslashes :
    (run (fun _ _ => .unreachable) (ofUrl apiBase) (getRequest "\\\\evil.test/users")
        .none).attempted.map (fun w => w.url) =
      some ⟨"https", some ⟨"", "", .name "evil.test", none⟩, "/users", none, none⟩ ∧
    ¬ Url.SameOrigin ⟨"https", some ⟨"", "", .name "evil.test", none⟩, "/users", none, none⟩
      apiBase := by
  decide +kernel

end HttpTransport
end RestDispatch
