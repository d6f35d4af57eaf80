import RestDispatch.Http.Transport

/-!
# The stages of a run

A run ends where an interceptor rejects the request, where its URL is refused, at a header that is
none, with a request that cannot be sent, or with an exchange. `Ends` says what a run is that ends
at a stage, and `run_ends` that every run ends at one.
-/

namespace RestDispatch.HttpTransport

variable [DomainNames] {net : Network} {t : HttpTransport} {r q : Request} {options : HttpOptions}
  {log : Log}

theorem run_of_rejected {e : ApiError} (hi : t.interceptors.apply r = (q, .error e, log)) :
    t.run net r options = ⟨[], .error e, span r ⟨none, none, none⟩ :: log⟩ := by
  simp only [run, carryOut, hi]
  rfl

theorem run_of_refused {f : ConfigError} (hi : t.interceptors.apply r = (q, .ok (), log))
    (hj : joinRelative t.baseUrl q = .error f) :
    t.run net r options = ⟨[], .error (.config f), span r ⟨none, none, none⟩ :: log⟩ := by
  simp only [run, carryOut, hi, hj]
  rfl

theorem run_of_badHeader {u : Url} {f : HeaderFault}
    (hi : t.interceptors.apply r = (q, .ok (), log)) (hj : joinRelative t.baseUrl q = .ok u)
    (hh : Header.ofPairs options.headers = .error f) :
    t.run net r options = ⟨[], .error f.error, span r ⟨some u, none, none⟩ :: log⟩ := by
  simp only [run, carryOut, hi, hj, exchange, hh]
  rfl

/-- A request that passes the checks is sent if it can be. -/
theorem run_of_composed {u : Url} {hs : List Header}
    (hi : t.interceptors.apply r = (q, .ok (), log)) (hj : joinRelative t.baseUrl q = .ok u)
    (hh : Header.ofPairs options.headers = .ok hs) :
    let w := WireRequest.compose q u hs t.defaultHeaders
    let timeout := options.timeout.getD t.timeout
    t.run net r options =
      if w.isSendable then
        let (result, status) := (net w timeout).conclude w timeout
        ⟨[w], result.mapError .client, span r ⟨some u, status, status.map outcomeOf⟩ :: log⟩
      else
        ⟨[], .error (.client (.request (.unsendable w.url.text))),
          span r ⟨some u, none, none⟩ :: log⟩ := by
  intro w timeout
  simp only [run, carryOut, hi, hj, exchange, hh]
  by_cases hw : (WireRequest.compose q u hs t.defaultHeaders).isSendable = true
  · simp only [w, if_pos hw]
    rfl
  · simp only [w, if_neg hw]
    rfl

/-- What a run is, by the stage at which it ends. -/
inductive Ends (net : Network) (t : HttpTransport) (r : Request) (options : HttpOptions) :
    Run → Prop
  | rejected {q : Request} {e : ApiError} {log : Log}
      (hi : t.interceptors.apply r = (q, .error e, log)) :
      Ends net t r options ⟨[], .error e, span r ⟨none, none, none⟩ :: log⟩
  | refused {q : Request} {f : ConfigError} {log : Log}
      (hi : t.interceptors.apply r = (q, .ok (), log))
      (hj : joinRelative t.baseUrl q = .error f) :
      Ends net t r options ⟨[], .error (.config f), span r ⟨none, none, none⟩ :: log⟩
  | badHeader {q : Request} {u : Url} {f : HeaderFault} {log : Log}
      (hi : t.interceptors.apply r = (q, .ok (), log)) (hj : joinRelative t.baseUrl q = .ok u)
      (hh : Header.ofPairs options.headers = .error f) :
      Ends net t r options ⟨[], .error f.error, span r ⟨some u, none, none⟩ :: log⟩
  | unsendable {q : Request} {u : Url} {hs : List Header} {w : WireRequest} {log : Log}
      (hi : t.interceptors.apply r = (q, .ok (), log)) (hj : joinRelative t.baseUrl q = .ok u)
      (hh : Header.ofPairs options.headers = .ok hs)
      (hw : w = WireRequest.compose q u hs t.defaultHeaders) (hn : w.isSendable = false) :
      Ends net t r options ⟨[], .error (.client (.request (.unsendable w.url.text))),
        span r ⟨some u, none, none⟩ :: log⟩
  | exchanged {q : Request} {u : Url} {hs : List Header} {w : WireRequest} {x : Exchange}
      {log : Log}
      (hi : t.interceptors.apply r = (q, .ok (), log)) (hj : joinRelative t.baseUrl q = .ok u)
      (hh : Header.ofPairs options.headers = .ok hs)
      (hw : w = WireRequest.compose q u hs t.defaultHeaders) (hs : w.isSendable = true)
      (hx : x = net w (options.timeout.getD t.timeout)) :
      Ends net t r options
        ⟨[w], (x.conclude w (options.timeout.getD t.timeout)).1.mapError .client,
          span r ⟨some u, (x.conclude w (options.timeout.getD t.timeout)).2,
            (x.conclude w (options.timeout.getD t.timeout)).2.map outcomeOf⟩ :: log⟩

/-- Every run ends at one of the stages. -/
theorem run_ends (net : Network) (t : HttpTransport) (r : Request) (options : HttpOptions) :
    Ends net t r options (t.run net r options) := by
  obtain ⟨q, outcome, log, hi⟩ :
      ∃ q outcome log, t.interceptors.apply r = (q, outcome, log) := ⟨_, _, _, rfl⟩
  cases outcome with
  | error e =>
    rw [run_of_rejected hi]
    exact .rejected hi
  | ok _ =>
    cases hj : joinRelative t.baseUrl q with
    | error f =>
      rw [run_of_refused hi hj]
      exact .refused hi hj
    | ok u =>
      cases hh : Header.ofPairs options.headers with
      | error f =>
        rw [run_of_badHeader hi hj hh]
        exact .badHeader hi hj hh
      | ok hs =>
        rw [run_of_composed hi hj hh]
        split
        · next hw => exact .exchanged hi hj hh rfl hw rfl
        · next hw => exact .unsendable hi hj hh rfl (Bool.eq_false_iff.2 hw)

end RestDispatch.HttpTransport
