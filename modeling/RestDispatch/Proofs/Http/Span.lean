import RestDispatch.Proofs.Http.Outcome

/-!
# What the span of a call tells

A call over HTTP leaves one span, before the events of its interceptors. The span tells the URL as
soon as it is joined, the status as soon as there is an answer, and then an outcome. `span_tells`
says what can be read from it about the result of the call, and `success_told_iff` which runs are
told as a success. An interceptor that rejects a request with the error of a status leaves no
outcome, since there was no answer.
-/

namespace RestDispatch

theorem Status.isServerError_iff {s : Nat} : isServerError s = true ↔ 500 ≤ s ∧ s ≤ 599 := by
  rw [isServerError, Bool.and_eq_true, decide_eq_true_iff, decide_eq_true_iff, Nat.lt_succ_iff]

/-- Interceptors leave no spans. -/
theorem Interceptors.exists_event_of_run {is : List Interceptor} {index : Nat} {r : Request}
    {record : LogRecord} (h : record ∈ (run index is r).2.2) :
    ∃ level message fields, record = .event level message fields := by
  induction is generalizing index r with
  | nil => cases h
  | cons i is ih =>
    rw [run] at h
    split at h
    · exact ih h
    · rw [List.mem_singleton.1 h]
      exact ⟨_, _, _, rfl⟩

namespace Exchange

/-- The status of an answer. -/
def status? : Exchange → Option Nat
  | .answered s _ _ => some s
  | _ => none

theorem status?_eq_some_iff {x : Exchange} {s : Nat} :
    x.status? = some s ↔ ∃ headers body, x = .answered s headers body := by
  cases x <;> simp [status?]

theorem conclude_snd (x : Exchange) (w : WireRequest) (timeout : Duration) :
    (x.conclude w timeout).2 = x.status? := by
  cases x <;> rfl

end Exchange

namespace HttpTransport

/-! ### The fields of a span -/

/-- The fields of the span of a call. -/
def Trace.fields (r : Request) (trace : Trace) : LogFields :=
  [("route", .text r.route), ("http.method", .text r.method.verb), ("otel.kind", .text "client")] ++
    (trace.url.map fun u => ("http.url", LogValue.text u.text)).toList ++
    (trace.status.map fun s => ("http.status_code", LogValue.number s)).toList ++
    (trace.outcome.map fun s => ("otel.status_code", LogValue.text s)).toList

theorem span_eq (r : Request) (trace : Trace) :
    span r trace = .span "route_request" (trace.fields r) := rfl

theorem lookup_url (r : Request) (trace : Trace) :
    (trace.fields r).lookup "http.url" = trace.url.map fun u => .text u.text := by
  obtain ⟨url, status, outcome⟩ := trace
  cases url <;> cases status <;> cases outcome <;> rfl

theorem lookup_status (r : Request) (trace : Trace) :
    (trace.fields r).lookup "http.status_code" = trace.status.map .number := by
  obtain ⟨url, status, outcome⟩ := trace
  cases url <;> cases status <;> cases outcome <;> rfl

theorem lookup_outcome (r : Request) (trace : Trace) :
    (trace.fields r).lookup "otel.status_code" = trace.outcome.map .text := by
  obtain ⟨url, status, outcome⟩ := trace
  cases url <;> cases status <;> cases outcome <;> rfl

/-! ### The stages of a call -/

/-- Whether the interceptors accept a request, and its URL is joined to the base as `u`. -/
def Joins [DomainNames] (t : HttpTransport) (r : Request) (u : Url) : Prop :=
  ∃ q, Interceptors.Accept t.interceptors.chain r q ∧ joinRelative t.baseUrl q = .ok u

variable {net : Network} {t : HttpTransport} {r : Request} {options : HttpOptions}

theorem joins_iff [DomainNames] {u : Url} : t.Joins r u ↔
    ∃ q log, t.interceptors.apply r = (q, .ok (), log) ∧ joinRelative t.baseUrl q = .ok u := by
  constructor
  · rintro ⟨q, ha, hj⟩
    exact ⟨q, [], Interceptors.apply_eq_ok_iff.2 ⟨ha, rfl⟩, hj⟩
  · rintro ⟨q, log, hi, hj⟩
    exact ⟨q, (Interceptors.apply_eq_ok_iff.1 hi).1, hj⟩

/-- Once the interceptors accept a request, only the URL of what they make of it is joined. -/
theorem joins_iff_of_accept [DomainNames] {q : Request} {log : Log}
    (hi : t.interceptors.apply r = (q, .ok (), log)) {u : Url} :
    t.Joins r u ↔ joinRelative t.baseUrl q = .ok u := by
  rw [joins_iff, hi]
  constructor
  · rintro ⟨_, _, ⟨⟩, hj⟩
    exact hj
  · exact fun hj => ⟨q, log, rfl, hj⟩

theorem not_joins_of_reject [DomainNames] {q : Request} {e : ApiError} {log : Log}
    (hi : t.interceptors.apply r = (q, .error e, log)) (u : Url) : ¬ t.Joins r u := by
  rw [joins_iff, hi]
  rintro ⟨_, _, ⟨⟩, -⟩

theorem Joins.unique [DomainNames] {u v : Url} (hu : t.Joins r u) (hv : t.Joins r v) : u = v := by
  obtain ⟨q, log, hi, hj⟩ := joins_iff.1 hu
  exact Except.ok.inj (hj.symm.trans ((joins_iff_of_accept hi).1 hv))

/-- What a span tells once there was an exchange. -/
def Trace.ofExchange (u : Url) (x : Exchange) : Trace :=
  ⟨some u, x.status?, x.status?.map outcomeOf⟩

/-- What a span tells of a run, by the stage that the run comes to: the URL is not joined, no
exchange is made, or there is one. -/
inductive Reaches [DomainNames] (net : Network) (t : HttpTransport) (r : Request)
    (options : HttpOptions) (done : Run) : Trace → Prop
  | unjoined (hu : ∀ u, ¬ t.Joins r u) (ha : done.attempted = none)
      (hr : ∃ e, done.result = .error e) : Reaches net t r options done ⟨none, none, none⟩
  | joined {u : Url} (hu : t.Joins r u) (ha : done.attempted = none)
      (hr : ∃ e, done.result = .error e) : Reaches net t r options done ⟨some u, none, none⟩
  | exchanged {u : Url} {w : WireRequest} (hu : t.Joins r u) (ha : done.attempted = some w)
      (hr : (net w (options.timeout.getD t.timeout)).Settles done.result) :
      Reaches net t r options done (.ofExchange u (net w (options.timeout.getD t.timeout)))

/-- A run leaves one span, before the events of the interceptors. -/
theorem exists_span [DomainNames] (net : Network) (t : HttpTransport) (r : Request)
    (options : HttpOptions) :
    ∃ trace events, (t.run net r options).log = span r trace :: events ∧
      (∀ record ∈ events, ∃ level message fields, record = .event level message fields) ∧
      Reaches net t r options (t.run net r options) trace := by
  have hevents {q : Request} {outcome : Except ApiError Unit} {log : Log}
      (hi : t.interceptors.apply r = (q, outcome, log)) :
      ∀ record ∈ log, ∃ level message fields, record = .event level message fields := by
    have hlog : log = (Interceptors.run 0 t.interceptors.chain r).2.2 := (congrArg (·.2.2) hi).symm
    exact fun record hm => Interceptors.exists_event_of_run (hlog ▸ hm)
  have hends := run_ends net t r options
  generalize t.run net r options = done at hends ⊢
  cases hends with
  | rejected hi =>
    exact ⟨_, _, rfl, hevents hi, .unjoined (not_joins_of_reject hi) rfl ⟨_, rfl⟩⟩
  | refused hi hj =>
    refine ⟨_, _, rfl, hevents hi, .unjoined (fun u hu => ?_) rfl ⟨_, rfl⟩⟩
    cases hj.symm.trans ((joins_iff_of_accept hi).1 hu)
  | badHeader hi hj | unsendable hi hj =>
    exact ⟨_, _, rfl, hevents hi, .joined ((joins_iff_of_accept hi).2 hj) rfl ⟨_, rfl⟩⟩
  | exchanged hi hj _ _ _ hx =>
    subst hx
    rw [Exchange.conclude_snd]
    refine ⟨_, _, rfl, hevents hi, .exchanged ((joins_iff_of_accept hi).2 hj) rfl ?_⟩
    exact Exchange.settles_conclude _ _ _

/-! ### The outcome of an answer -/

theorem outcomeOf_of_success {s : Nat} (h : 200 ≤ s ∧ s ≤ 299) : outcomeOf s = "OK" :=
  if_pos (Status.isSuccess_iff.2 h)

theorem outcomeOf_of_failure {s : Nat} (h : 500 ≤ s ∧ s ≤ 599) : outcomeOf s = "ERROR" := by
  have hn : ¬ Status.isSuccess s = true := fun hs => by
    have := Status.isSuccess_iff.1 hs
    omega
  rw [outcomeOf, if_neg hn, if_pos (Status.isServerError_iff.2 h)]

theorem outcomeOf_of_other {s : Nat} (hn : ¬ (200 ≤ s ∧ s ≤ 299)) (h : ¬ (500 ≤ s ∧ s ≤ 599)) :
    outcomeOf s = "UNSET" := by
  rw [outcomeOf, if_neg (mt Status.isSuccess_iff.1 hn), if_neg (mt Status.isServerError_iff.1 h)]

/-! ### What can be read from a span -/

/-- Whether a run has an answer of the network. -/
def Run.Answered (done : Run) (net : Network) (timeout : Duration) (s : Nat)
    (headers : List Header) (body : BodyOutcome) : Prop :=
  ∃ w, done.attempted = some w ∧ net w timeout = .answered s headers body

/-- Whether a run with an exchange ends in the error of a status. -/
def Run.Failed (done : Run) (s : Nat) : Prop :=
  done.attempted ≠ none ∧ ∃ m, done.result = .error (.client (.httpStatus s m))

/-- Whether a run has an answer of success whose body is not read to its end. -/
def Run.BreaksOff (done : Run) (net : Network) (timeout : Duration) : Prop :=
  ∃ s headers body, done.Answered net timeout s headers body ∧ (200 ≤ s ∧ s ≤ 299) ∧
    ∀ bs, body ≠ .complete bs

namespace Reaches

variable [DomainNames] {done : Run} {trace : Trace} (h : Reaches net t r options done trace)
include h

theorem url_iff {u : Url} : trace.url = some u ↔ t.Joins r u := by
  cases h with
  | unjoined hu => exact ⟨(nomatch ·), fun h => absurd h (hu u)⟩
  | joined hu => exact ⟨fun h => Option.some.inj h ▸ hu, fun h => congrArg some (hu.unique h)⟩
  | exchanged hu => exact ⟨fun h => Option.some.inj h ▸ hu, fun h => congrArg some (hu.unique h)⟩

theorem outcome_eq : trace.outcome = trace.status.map outcomeOf := by
  cases h <;> rfl

theorem status_iff {s : Nat} : trace.status = some s ↔
    ∃ headers body, done.Answered net (options.timeout.getD t.timeout) s headers body := by
  cases h with
  | unjoined hu ha => simp [Run.Answered, ha]
  | joined hu ha => simp [Run.Answered, ha]
  | exchanged hu ha => simp [Run.Answered, ha, Trace.ofExchange, Exchange.status?_eq_some_iff]

/-- A run with an answer of success ends in a response or breaks off, and one with any other answer
ends in the error of its status. -/
theorem cases_of_status {s : Nat} (hs : trace.status = some s) :
    (200 ≤ s ∧ s ≤ 299) ∧ (∃ response, done.result = .ok response) ∨
      (200 ≤ s ∧ s ≤ 299) ∧ done.BreaksOff net (options.timeout.getD t.timeout) ∧
        (∃ f, done.result = .error (.client (.request f))) ∨
      ¬ (200 ≤ s ∧ s ≤ 299) ∧ done.Failed s := by
  cases h with
  | unjoined => cases hs
  | joined => cases hs
  | exchanged hu ha hr =>
    obtain ⟨headers, body, hx⟩ := Exchange.status?_eq_some_iff.1 hs
    have hanswer := hx ▸ hr
    rcases hanswer.cases_of_answered with ⟨hin, hok⟩ | ⟨hin, hb, hf⟩ | ⟨hout, hm⟩
    · exact .inl ⟨hin, hok⟩
    · exact .inr (.inl ⟨hin, ⟨s, headers, body, ⟨_, ha, hx⟩, hin, hb⟩, hf⟩)
    · exact .inr (.inr ⟨hout, by simp [ha], hm⟩)

/-- An answer of success whose body is not read to its end ends in a fault of the exchange. -/
theorem result_of_breaksOff (hb : done.BreaksOff net (options.timeout.getD t.timeout)) :
    ∃ f, done.result = .error (.client (.request f)) := by
  obtain ⟨s, headers, body, ⟨w, hw, hx⟩, hin, hbody⟩ := hb
  cases h with
  | unjoined hu ha | joined hu ha => cases ha.symm.trans hw
  | exchanged hu ha hr =>
    cases ha.symm.trans hw
    exact hr.unread s headers body hx hin hbody

/-- A run without an answer ends in an error, which is not that of a status if there was an
exchange. -/
theorem of_status_eq_none (hs : trace.status = none) :
    (∃ e, done.result = .error e) ∧ ∀ s, ¬ done.Failed s := by
  cases h with
  | unjoined hu ha hr => exact ⟨hr, fun s hf => hf.1 ha⟩
  | joined hu ha hr => exact ⟨hr, fun s hf => hf.1 ha⟩
  | @exchanged u w hu ha hr =>
    have herror : ∃ e, done.result = .error (.client e) ∧ ∀ s m, e ≠ .httpStatus s m := by
      cases hx : net w (options.timeout.getD t.timeout) with
      | answered s headers body => rw [Trace.ofExchange, hx] at hs; cases hs
      | timedOut =>
        obtain ⟨millis, hm⟩ := hr.late hx
        exact ⟨_, hm, fun _ _ => (nomatch ·)⟩
      | unreachable =>
        obtain ⟨f, hf⟩ := hr.silent (.inl hx)
        exact ⟨_, hf, fun _ _ => (nomatch ·)⟩
      | brokenOff =>
        obtain ⟨f, hf⟩ := hr.silent (.inr hx)
        exact ⟨_, hf, fun _ _ => (nomatch ·)⟩
    obtain ⟨e, he, hne⟩ := herror
    refine ⟨⟨_, he⟩, ?_⟩
    rintro s ⟨-, m, hm⟩
    cases he.symm.trans hm
    exact hne s m rfl

end Reaches

/-- A run fails with one status at most. -/
theorem Run.Failed.iff_eq {done : Run} {s s' : Nat} (h : done.Failed s) :
    done.Failed s' ↔ s' = s := by
  refine ⟨fun h' => ?_, fun e => e ▸ h⟩
  obtain ⟨-, m, hm⟩ := h
  obtain ⟨-, m', hm'⟩ := h'
  cases hm.symm.trans hm'
  rfl

/-- What the fields of a span tell of a run. -/
structure Tells [DomainNames] (net : Network) (t : HttpTransport) (r : Request)
    (options : HttpOptions) (done : Run) (fields : LogFields) : Prop where
  /-- The URL is told exactly if it was joined. -/
  url_iff : ∀ v, fields.lookup "http.url" = some v ↔ ∃ u, t.Joins r u ∧ v = .text u.text
  /-- The status is told exactly if there was an answer. -/
  status_iff : ∀ v, fields.lookup "http.status_code" = some v ↔ ∃ s headers body,
    done.Answered net (options.timeout.getD t.timeout) s headers body ∧ v = .number s
  /-- A response is told. -/
  ok_of_ok : ∀ response, done.result = .ok response →
    fields.lookup "otel.status_code" = some (.text "OK")
  /-- A failure of the server is told exactly if an exchange ended in one. -/
  error_iff : fields.lookup "otel.status_code" = some (.text "ERROR") ↔
    ∃ s, done.Failed s ∧ 500 ≤ s ∧ s ≤ 599
  /-- An error is told to be none of the server exactly if an exchange ended in one. -/
  unset_iff : fields.lookup "otel.status_code" = some (.text "UNSET") ↔
    ∃ s, done.Failed s ∧ ¬ (500 ≤ s ∧ s ≤ 599)
  /-- Unless an answer of success breaks off, only a response is told to be one. -/
  ok_iff : ¬ done.BreaksOff net (options.timeout.getD t.timeout) →
    (fields.lookup "otel.status_code" = some (.text "OK") ↔ ∃ response, done.result = .ok response)
  /-- Unless an answer of success breaks off, nothing is told exactly if the run ended in no
  response and no exchange in the error of a status. -/
  none_iff : ¬ done.BreaksOff net (options.timeout.getD t.timeout) →
    (fields.lookup "otel.status_code" = none ↔
      (∀ response, done.result ≠ .ok response) ∧ ∀ s, ¬ done.Failed s)

/-- The outcome that a span tells, by what the run ended in. -/
theorem Reaches.outcome_cases [DomainNames] {done : Run} {trace : Trace}
    (h : Reaches net t r options done trace) :
    trace.outcome = some "OK" ∧ (∃ response, done.result = .ok response) ∨
      trace.outcome = some "OK" ∧ done.BreaksOff net (options.timeout.getD t.timeout) ∧
        (∃ f, done.result = .error (.client (.request f))) ∨
      trace.outcome = some "ERROR" ∧ (∃ s, done.Failed s ∧ 500 ≤ s ∧ s ≤ 599) ∨
      trace.outcome = some "UNSET" ∧ (∃ s, done.Failed s ∧ ¬ (500 ≤ s ∧ s ≤ 599)) ∨
      trace.outcome = none ∧ (∃ e, done.result = .error e) ∧ ∀ s, ¬ done.Failed s := by
  rw [h.outcome_eq]
  cases hs : trace.status with
  | none => exact .inr (.inr (.inr (.inr ⟨rfl, h.of_status_eq_none hs⟩)))
  | some s =>
    rw [Option.map_some]
    rcases h.cases_of_status hs with ⟨hin, hok⟩ | ⟨hin, hb, hf⟩ | ⟨hout, hf⟩
    · exact .inl ⟨congrArg some (outcomeOf_of_success hin), hok⟩
    · exact .inr (.inl ⟨congrArg some (outcomeOf_of_success hin), hb, hf⟩)
    · by_cases he : 500 ≤ s ∧ s ≤ 599
      · exact .inr (.inr (.inl ⟨congrArg some (outcomeOf_of_failure he), s, hf, he⟩))
      · exact .inr (.inr (.inr (.inl ⟨congrArg some (outcomeOf_of_other hout he), s, hf, he⟩)))

theorem Reaches.tells [DomainNames] {done : Run} {trace : Trace}
    (h : Reaches net t r options done trace) : Tells net t r options done (trace.fields r) := by
  have hurl (v : LogValue) : (trace.fields r).lookup "http.url" = some v ↔
      ∃ u, t.Joins r u ∧ v = .text u.text := by
    rw [lookup_url, Option.map_eq_some_iff]
    simp only [h.url_iff, eq_comm]
  have hstatus (v : LogValue) : (trace.fields r).lookup "http.status_code" = some v ↔
      ∃ s headers body,
        done.Answered net (options.timeout.getD t.timeout) s headers body ∧ v = .number s := by
    rw [lookup_status, Option.map_eq_some_iff]
    simp only [h.status_iff, exists_and_right, eq_comm]
  have houtcome := lookup_outcome r trace
  rcases h.outcome_cases with ⟨ho, response, hr⟩ | ⟨ho, hb, f, hr⟩ | ⟨ho, s, hf, he⟩ |
    ⟨ho, s, hf, he⟩ | ⟨ho, ⟨e, hr⟩, hf⟩
  · have hn (s : Nat) : ¬ done.Failed s := by
      rintro ⟨-, m, hm⟩
      cases hr.symm.trans hm
    rw [ho] at houtcome
    refine ⟨hurl, hstatus, ?_, ?_, ?_, ?_, ?_⟩ <;> simp [houtcome, hr, hn]
  · have hn (s : Nat) : ¬ done.Failed s := by
      rintro ⟨-, m, hm⟩
      cases hr.symm.trans hm
    rw [ho] at houtcome
    refine ⟨hurl, hstatus, ?_, ?_, ?_, ?_, ?_⟩ <;> simp [houtcome, hr, hn, hb]
  · have hn (s' : Nat) : done.Failed s' ↔ s' = s := hf.iff_eq
    obtain ⟨-, m, hr⟩ := hf
    rw [ho] at houtcome
    refine ⟨hurl, hstatus, ?_, ?_, ?_, ?_, ?_⟩ <;> simp [houtcome, hr, hn, he]
  · have hn (s' : Nat) : done.Failed s' ↔ s' = s := hf.iff_eq
    obtain ⟨-, m, hr⟩ := hf
    rw [ho] at houtcome
    refine ⟨hurl, hstatus, ?_, ?_, ?_, ?_, ?_⟩ <;> simp [houtcome, hr, hn, he, -not_and]
  · rw [ho] at houtcome
    refine ⟨hurl, hstatus, ?_, ?_, ?_, ?_, ?_⟩ <;> simp [houtcome, hr, hf]

/-- A success is told of the runs that end in a response, and of those that break off after an
answer of success. -/
theorem Reaches.outcome_eq_ok_iff [DomainNames] {done : Run} {trace : Trace}
    (h : Reaches net t r options done trace) : trace.outcome = some "OK" ↔
      (∃ response, done.result = .ok response) ∨
        done.BreaksOff net (options.timeout.getD t.timeout) := by
  -- a run that breaks off ends in a fault of the exchange, and so in no error of a status
  have hn {s : Nat} (hf : done.Failed s) : ¬ ((∃ response, done.result = .ok response) ∨
      done.BreaksOff net (options.timeout.getD t.timeout)) := by
    obtain ⟨-, m, hm⟩ := hf
    rintro (⟨response, hr⟩ | hb)
    · cases hm.symm.trans hr
    · obtain ⟨f, hr⟩ := h.result_of_breaksOff hb
      cases hm.symm.trans hr
  rcases h.outcome_cases with ⟨ho, hr⟩ | ⟨ho, hb, -⟩ | ⟨ho, s, hf, -⟩ | ⟨ho, s, hf, -⟩ |
    ⟨ho, ⟨e, hr⟩, -⟩
  · exact iff_of_true ho (.inl hr)
  · exact iff_of_true ho (.inr hb)
  · exact iff_of_false (by simp [ho]) (hn hf)
  · exact iff_of_false (by simp [ho]) (hn hf)
  · refine iff_of_false (by simp [ho]) ?_
    rintro (⟨response, hok⟩ | ⟨s, headers, body, ha, -⟩)
    · cases hr.symm.trans hok
    · have hs := h.status_iff.2 ⟨headers, body, ha⟩
      rw [h.outcome_eq, hs] at ho
      cases ho

/-- **Which runs are told as a success.** The outcome is told before the body of an answer is read:
the span tells a success exactly of the runs that end in a response, and of those that break off
after an answer of success and so end in a fault of the exchange. -/
theorem success_told_iff [DomainNames] (net : Network) (t : HttpTransport) (r : Request)
    (options : HttpOptions) :
    let done := t.run net r options
    let timeout := options.timeout.getD t.timeout
    (∃ fields events, done.log = .span "route_request" fields :: events ∧
        (fields.lookup "otel.status_code" = some (.text "OK") ↔
          (∃ response, done.result = .ok response) ∨ done.BreaksOff net timeout)) ∧
      (done.BreaksOff net timeout → ∃ f, done.result = .error (.client (.request f))) := by
  intro done timeout
  obtain ⟨trace, events, hlog, -, hreaches⟩ := exists_span net t r options
  refine ⟨⟨trace.fields r, events, hlog, ?_⟩, hreaches.result_of_breaksOff⟩
  rw [lookup_outcome, ← hreaches.outcome_eq_ok_iff, Option.map_eq_some_iff]
  constructor
  · rintro ⟨_, ho, ⟨⟩⟩
    exact ho
  · exact fun ho => ⟨_, ho, rfl⟩

/-- **What the span of a call tells.** Every run leaves one span, before any events, and its fields
tell of the run: the URL exactly if it was joined, the status exactly if there was an answer, and an
outcome by what the run ended in. Nothing is said of the outcome of a run whose answer of success
breaks off, but that it is not told as the error of a status. -/
theorem span_tells [DomainNames] (net : Network) (t : HttpTransport) (r : Request)
    (options : HttpOptions) :
    ∃ fields events, (t.run net r options).log = .span "route_request" fields :: events ∧
      (∀ record ∈ events, ∃ level message fields, record = .event level message fields) ∧
      Tells net t r options (t.run net r options) fields := by
  obtain ⟨trace, events, hlog, hevents, hreaches⟩ := exists_span net t r options
  rw [span_eq] at hlog
  exact ⟨trace.fields r, events, hlog, hevents, hreaches.tells⟩

/-- A server that answers every request with an empty body. -/
def idle : Network := fun _ _ => .answered 200 [] (.complete [])

/-- The answer does not break off, and the span tells that there is a response. -/
theorem span_tells_idle :
    let done := (ofUrl apiBase).run idle (getRequest "users") .none
    ¬ done.BreaksOff idle HttpConfig.defaultTimeout ∧
      ∃ fields events, done.log = .span "route_request" fields :: events ∧
        fields.lookup "otel.status_code" = some (.text "OK") := by
  intro done
  have hwhole : ¬ done.BreaksOff idle HttpConfig.defaultTimeout := by
    rintro ⟨_, _, _, ⟨_, _, ⟨⟩⟩, -, hb⟩
    exact hb [] rfl
  obtain ⟨fields, events, hlog, -, htells⟩ :=
    span_tells idle (ofUrl apiBase) (getRequest "users") .none
  exact ⟨hwhole, fields, events, hlog, (htells.ok_iff hwhole).2 ⟨⟨200, [], []⟩, by rfl⟩⟩

/-- An interceptor that rejects every request as if the server were not available. -/
def closed : Interceptor := fun q => (q, .error (.client (.httpStatus 503 "closed")))

/-- The error of an interceptor is not told as a failure of the server, although it has the status
of one. -/
theorem closed_not_told :
    let done := ((ofUrl apiBase).withInterceptor closed).run idle (getRequest "users") .none
    ∃ fields events, done.log = .span "route_request" fields :: events ∧
      ¬ (fields.lookup "otel.status_code" = some (.text "ERROR") ↔
        ∃ s m, done.result = .error (.client (.httpStatus s m)) ∧ 500 ≤ s ∧ s ≤ 599) := by
  intro done
  have hlog : ∃ events, done.log =
      .span "route_request" (Trace.fields (getRequest "users") ⟨none, none, none⟩) :: events :=
    ⟨_, rfl⟩
  obtain ⟨events, hlog⟩ := hlog
  refine ⟨_, events, hlog, fun h => ?_⟩
  have htold := h.2 ⟨503, "closed", rfl, by decide⟩
  rw [lookup_outcome] at htold
  cases htold

end HttpTransport
end RestDispatch
