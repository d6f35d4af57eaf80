import RestDispatch.Dispatcher
import RestDispatch.Proofs.Http.Admission
import RestDispatch.Proofs.Schema.Construction

/-!
# At which stage a call fails

A call over HTTP fails before the transport has it, while an interceptor looks at its request, when
the URL of the request is joined to the base, or in the exchange. `run_cases` tells the stages of a
transport apart. `isConfig_iff` says which of them an error of configuration comes from: the first,
and the joining of the URL, which the transport does; and that nothing has been sent then.
-/

namespace RestDispatch

variable {τ : Type} [ParamTypes τ]

/-- Whether an interceptor rejects requests with errors of the client alone. -/
def Interceptor.RejectsAsClient (i : Interceptor) : Prop :=
  ∀ r e, (i r).2 = .error e → ∃ c, e = .client c

namespace Interceptors

theorem exists_client_of_apply {is : Interceptors} (hc : ∀ i ∈ is.chain, i.RejectsAsClient)
    {r q : Request} {e : ApiError} {log : Log} (h : is.apply r = (q, .error e, log)) :
    ∃ c, e = .client c := by
  obtain ⟨before, i, after, r', his, -, hr⟩ := exists_apply_eq_error_iff.1 ⟨q, log, h⟩
  exact hc i (his ▸ List.mem_append_cons_self) r' e hr

end Interceptors

namespace HttpTransport

/-- Whether the URL of a request is refused, as the interceptors leave it. -/
def Refuses [DomainNames] (t : HttpTransport) (r : Request) (f : ConfigError) : Prop :=
  ∃ q log, t.interceptors.apply r = (q, .ok (), log) ∧ joinRelative t.baseUrl q = .error f

theorem not_refuses [DomainNames] {t : HttpTransport} {r q : Request} {log : Log} {u : Url}
    (hi : t.interceptors.apply r = (q, .ok (), log)) (hj : joinRelative t.baseUrl q = .ok u)
    (f : ConfigError) : ¬ t.Refuses r f := by
  rintro ⟨_, _, hi', hj'⟩
  cases hi.symm.trans hi'
  cases hj.symm.trans hj'

/-- The errors of a run: that of an interceptor that rejects the request, that of a URL which is
refused, or one of the client. -/
theorem error_cases [DomainNames] (net : Network) (t : HttpTransport) (r : Request)
    (options : HttpOptions) :
    (∃ q e log, t.interceptors.apply r = (q, .error e, log) ∧
      (t.run net r options).result = .error e ∧ (t.run net r options).attempted = none) ∨
    (∃ f, t.Refuses r f ∧ (t.run net r options).result = .error (.config f) ∧
      (t.run net r options).attempted = none) ∨
    (∀ f, ¬ t.Refuses r f) ∧
      ∀ e, (t.run net r options).result = .error e → ∃ c, e = .client c := by
  have hends := run_ends net t r options
  generalize t.run net r options = done at hends ⊢
  cases hends with
  | rejected hi => exact .inl ⟨_, _, _, hi, rfl, rfl⟩
  | refused hi hj => exact .inr (.inl ⟨_, ⟨_, _, hi, hj⟩, rfl, rfl⟩)
  | badHeader hi hj | unsendable hi hj =>
    refine .inr (.inr ⟨not_refuses hi hj, ?_⟩)
    rintro _ ⟨⟩
    exact ⟨_, rfl⟩
  | exchanged hi hj =>
    refine .inr (.inr ⟨not_refuses hi hj, fun e he => ?_⟩)
    obtain ⟨c, -, hc⟩ := mapError_eq_error_iff.1 he
    exact ⟨c, hc.symm⟩

/-- A transport gives an error of configuration exactly for a request whose URL it refuses, and then
it sends nothing. -/
theorem isConfig_run_iff [DomainNames] {net : Network} {t : HttpTransport}
    (hc : ∀ i ∈ t.interceptors.chain, i.RejectsAsClient) {r : Request} {options : HttpOptions}
    {e : ApiError} (h : (t.run net r options).result = .error e) :
    (e.isConfig = true ↔ ∃ f, t.Refuses r f) ∧
      (e.isConfig = true → (t.run net r options).attempted = none) := by
  rcases error_cases net t r options with ⟨q, e', log, hi, hr, ha⟩ | ⟨f, hf, hr, ha⟩ | ⟨hn, hr⟩
  · cases hr.symm.trans h
    obtain ⟨c, rfl⟩ := Interceptors.exists_client_of_apply hc hi
    refine ⟨⟨(nomatch ·), ?_⟩, fun _ => ha⟩
    rintro ⟨f, q', log', hi', -⟩
    cases hi.symm.trans hi'
  · cases hr.symm.trans h
    exact ⟨⟨fun _ => ⟨f, hf⟩, fun _ => rfl⟩, fun _ => ha⟩
  · obtain ⟨c, rfl⟩ := hr e h
    exact ⟨⟨(nomatch ·), fun ⟨f, hf⟩ => absurd hf (hn f)⟩, (nomatch ·)⟩

end HttpTransport

namespace Dispatcher

variable {ω ρ : Type} {r : Route τ}

/-- A call is not given to the transport and fails over its configuration, or the transport is given
its request and decides. -/
theorem sendRaw_cases (d : Dispatcher τ ω ρ) (c : Call r ω) :
    (∃ f, (d.sendRaw c).delegated = none ∧ (d.sendRaw c).result = .error (.config f)) ∨
      ∃ q options, (d.sendRaw c).delegated = some (q, options) ∧
        (d.sendRaw c).result = (d.transport.execute q options).1 := by
  obtain ⟨result, log, hp⟩ : ∃ result log, c.prepare d.schema = (result, log) := ⟨_, _, rfl⟩
  cases result with
  | error f => exact .inl ⟨f, by simp only [sendRaw, hp], by simp only [sendRaw, hp]⟩
  | ok p => exact .inr ⟨p.1, p.2, by simp only [sendRaw, hp], by simp only [sendRaw, hp]⟩

end Dispatcher

namespace HttpTransport

variable {r : Route τ}

/-- A dispatcher over an HTTP transport. -/
def dispatcher [DomainNames] (t : HttpTransport) (net : Network) (s : Schema τ) :
    Dispatcher τ HttpOptions HttpResponse := ⟨s, t.toTransport net⟩

/-- **Where errors of configuration come from.** When a call over HTTP fails and its interceptors
reject with errors of the client alone, the error is one of configuration exactly if the transport
was not given the call, or was given it and refused the URL; in either case nothing was sent. -/
theorem isConfig_iff [DomainNames] {t : HttpTransport}
    (hc : ∀ i ∈ t.interceptors.chain, i.RejectsAsClient) (net : Network) (s : Schema τ)
    (c : Call r HttpOptions) {e : ApiError}
    (h : ((t.dispatcher net s).sendRaw c).result = .error e) :
    (e.isConfig = true ↔ ((t.dispatcher net s).sendRaw c).delegated = none ∨
        ∃ q options f, ((t.dispatcher net s).sendRaw c).delegated = some (q, options) ∧
          t.Refuses q f) ∧
      (e.isConfig = true → ∀ q options,
        ((t.dispatcher net s).sendRaw c).delegated = some (q, options) →
          (t.run net q options).attempted = none) := by
  rcases (t.dispatcher net s).sendRaw_cases c with ⟨f, hd, hr⟩ | ⟨q, options, hd, hr⟩
  · cases hr.symm.trans h
    rw [hd]
    exact ⟨⟨fun _ => .inl rfl, fun _ => rfl⟩, fun _ _ _ hq => nomatch hq⟩
  · obtain ⟨hiff, hsent⟩ := isConfig_run_iff hc (hr.symm.trans h)
    rw [hd]
    refine ⟨hiff.trans ⟨fun ⟨f, hf⟩ => .inr ⟨q, options, f, rfl, hf⟩, ?_⟩, ?_⟩
    · rintro (hn | ⟨q', options', f, hq, hf⟩)
      · cases hn
      · cases hq
        exact ⟨f, hf⟩
    · intro he q' options' hq
      cases hq
      exact hsent he

/-- An interceptor that rejects every method but the safe ones. -/
def readOnly : Interceptor := fun q =>
  (q, if q.method.isSafe then .ok () else .error (.client (.interceptor "read only")))

/-- A call that fetches users by a given URL. -/
def usersCall (url : String) : Call (Schema.fixedRoute "users" url) HttpOptions := .start _ .none

/-- A schema of a route that fetches users by a given URL. -/
def usersSchema (url : String) : Schema Empty :=
  ⟨(Schema.builderOf [Schema.fixedRoute "users" url]).routes⟩

/-- A rooted URL is refused, and an interceptor that lets the request pass has no part in that. -/
theorem isConfig_rooted :
    let t := (ofUrl apiBase).withInterceptor readOnly
    let d := t.dispatcher (fun _ _ => .unreachable) (usersSchema "/users")
    (d.sendRaw (usersCall "/users")).result = .error (.config (.notRelative "users" "/users")) ∧
      ∃ q options f, (d.sendRaw (usersCall "/users")).delegated = some (q, options) ∧
        t.Refuses q f := by
  intro t d
  have hclient : ∀ i ∈ t.interceptors.chain, i.RejectsAsClient := by
    intro i hi r e he
    rw [List.mem_singleton.1 hi] at he
    simp only [readOnly] at he
    split at he
    · cases he
    · cases he
      exact ⟨_, rfl⟩
  have h : (d.sendRaw (usersCall "/users")).result =
      .error (.config (.notRelative "users" "/users")) := by rfl
  exact ⟨h, ((isConfig_iff hclient _ _ _ h).1.1 rfl).resolve_left (nomatch ·)⟩

/-- The transport is given a call whose URL is rooted, and the error is still one of
configuration. -/
theorem isConfig_of_delegated :
    let d := (ofUrl apiBase).dispatcher (fun _ _ => .unreachable) (usersSchema "/users")
    (∀ i ∈ (ofUrl apiBase).interceptors.chain, i.RejectsAsClient) ∧
      ∃ e, (d.sendRaw (usersCall "/users")).result = .error e ∧
        ¬ (e.isConfig = true ↔ (d.sendRaw (usersCall "/users")).delegated = none) := by
  intro d
  refine ⟨fun _ hi => (nomatch hi), .config (.notRelative "users" "/users"), by rfl, fun h => ?_⟩
  exact absurd (h.1 rfl) (nomatch ·)

end HttpTransport
end RestDispatch
