import RestDispatch.Proofs.Http.Admission
import RestDispatch.Proofs.Text.Utf8

/-!
# The result of an exchange

An answer is judged by its status first: one of success has to have a body that can be read, and any
other is an error that tells the status, whatever becomes of its body. `Exchange.Settles` says which
result belongs to an exchange, and `settles_of_admits` that every request that passes the checks has
that result.
-/

namespace RestDispatch

theorem Status.isSuccess_iff {s : Nat} : isSuccess s = true ↔ 200 ≤ s ∧ s ≤ 299 := by
  rw [isSuccess, Bool.and_eq_true, decide_eq_true_iff, decide_eq_true_iff, Nat.lt_succ_iff]

theorem ClientError.statusCode?_eq_some_iff {e : ClientError} {s : Nat} :
    e.statusCode? = some s ↔ ∃ m, e = .httpStatus s m := by
  cases e <;> simp [statusCode?]

namespace Exchange

/-- Whether a result is that of an exchange. -/
structure Settles (x : Exchange) (result : Except ApiError HttpResponse) : Prop where
  /-- A response is an answer of success with a body that was read to its end. -/
  ok_iff : ∀ response, result = .ok response ↔ ∃ s headers bs,
    x = .answered s headers (.complete bs) ∧ (200 ≤ s ∧ s ≤ 299) ∧ response = ⟨s, headers, bs⟩
  /-- Any other answer is an error with its status. The message is the body, or the text of the
  status where the body was not read to its end. -/
  failed : ∀ s headers body, x = .answered s headers body → ¬ (200 ≤ s ∧ s ≤ 299) →
    ∃ m, result = .error (.client (.httpStatus s m)) ∧
      (∀ text, body = .complete (Utf8.encode text) → m = text) ∧
      ((∀ bs, body ≠ .complete bs) → m = Status.text s)
  /-- An answer of success whose body was not read to its end is a fault of the exchange. -/
  unread : ∀ s headers body, x = .answered s headers body → 200 ≤ s ∧ s ≤ 299 →
    (∀ bs, body ≠ .complete bs) → ∃ f, result = .error (.client (.request f))
  /-- Without an answer in time the time is told. -/
  late : x = .timedOut → ∃ millis, result = .error (.client (.timeout millis))
  /-- Without an answer for any other reason there is a fault of the exchange. -/
  silent : x = .unreachable ∨ x = .brokenOff → ∃ f, result = .error (.client (.request f))
  /-- An error has a status code exactly if it is that of an answer. -/
  status_iff : ∀ e s, result = .error (.client e) →
    (e.statusCode? = some s ↔ ∃ m, e = .httpStatus s m)

/-- The result of an answer of success, by its body. -/
theorem resultOf_of_isSuccess {s : Nat} (h : Status.isSuccess s = true) (headers : List Header)
    (body : BodyOutcome) :
    (∃ bs, body = .complete bs ∧ resultOf s headers body = .ok ⟨s, headers, bs⟩) ∨
      (∀ bs, body ≠ .complete bs) ∧ ∃ f, resultOf s headers body = .error (.request f) := by
  unfold resultOf
  rw [if_pos h]
  cases body with
  | complete bs => exact .inl ⟨bs, rfl, rfl⟩
  | cutOff => exact .inr ⟨fun _ => (nomatch ·), _, rfl⟩
  | stalled => exact .inr ⟨fun _ => (nomatch ·), _, rfl⟩

/-- The result of any other answer, by its body. -/
theorem resultOf_of_not_isSuccess {s : Nat} (h : ¬ Status.isSuccess s = true)
    (headers : List Header) (body : BodyOutcome) :
    ∃ m, resultOf s headers body = .error (.httpStatus s m) ∧
      (∀ text, body = .complete (Utf8.encode text) → m = text) ∧
      ((∀ bs, body ≠ .complete bs) → m = Status.text s) := by
  unfold resultOf
  rw [if_neg h]
  cases body with
  | complete bs =>
    refine ⟨_, rfl, fun text hb => ?_, fun hn => absurd rfl (hn bs)⟩
    cases hb
    exact Utf8.decodeLossy_encode text
  | cutOff => exact ⟨_, rfl, fun _ => (nomatch ·), fun _ => rfl⟩
  | stalled => exact ⟨_, rfl, fun _ => (nomatch ·), fun _ => rfl⟩

/-- An exchange without an answer has an error for its result. -/
theorem Settles.of_error {x : Exchange} {e : ClientError}
    (hx : ∀ s headers body, x ≠ .answered s headers body)
    (hlate : x = .timedOut → ∃ millis, e = .timeout millis)
    (hsilent : x = .unreachable ∨ x = .brokenOff → ∃ f, e = .request f) :
    x.Settles (.error (.client e)) where
  ok_iff _ := ⟨(nomatch ·), fun ⟨_, _, _, h, _⟩ => absurd h (hx _ _ _)⟩
  failed _ _ _ h := absurd h (hx _ _ _)
  unread _ _ _ h := absurd h (hx _ _ _)
  late h := by
    obtain ⟨millis, rfl⟩ := hlate h
    exact ⟨millis, rfl⟩
  silent h := by
    obtain ⟨f, rfl⟩ := hsilent h
    exact ⟨f, rfl⟩
  status_iff _ _ _ := ClientError.statusCode?_eq_some_iff

/-- An answer has the result that its status and its body give. -/
theorem settles_answered (s : Nat) (headers : List Header) (body : BodyOutcome) :
    (answered s headers body).Settles ((resultOf s headers body).mapError .client) := by
  have hlate {P : Prop} : answered s headers body = .timedOut → P := (nomatch ·)
  have hsilent {P : Prop} :
      answered s headers body = .unreachable ∨ answered s headers body = .brokenOff → P := by
    rintro (h | h) <;> cases h
  by_cases hs : Status.isSuccess s = true
  · have hin := Status.isSuccess_iff.1 hs
    rcases resultOf_of_isSuccess hs headers body with ⟨bs, rfl, hr⟩ | ⟨hn, f, hr⟩
    · rw [hr]
      refine ⟨fun response => ⟨?_, ?_⟩, ?_, ?_, hlate, hsilent, fun _ _ => (nomatch ·)⟩
      · rintro ⟨⟩
        exact ⟨s, headers, bs, rfl, hin, rfl⟩
      · rintro ⟨_, _, _, ⟨⟩, -, rfl⟩
        rfl
      · rintro _ _ _ ⟨⟩ hout
        exact absurd hin hout
      · rintro _ _ _ ⟨⟩ - hn
        exact absurd rfl (hn bs)
    · rw [hr]
      refine ⟨fun response => ⟨(nomatch ·), ?_⟩, ?_, ?_, hlate, hsilent, ?_⟩
      · rintro ⟨_, _, bs, ⟨⟩, -⟩
        exact absurd rfl (hn bs)
      · rintro _ _ _ ⟨⟩ hout
        exact absurd hin hout
      · rintro _ _ _ ⟨⟩ - -
        exact ⟨f, rfl⟩
      · exact fun _ _ _ => ClientError.statusCode?_eq_some_iff
  · obtain ⟨m, hr, htext, hbody⟩ := resultOf_of_not_isSuccess hs headers body
    rw [hr]
    refine ⟨fun response => ⟨(nomatch ·), ?_⟩, ?_, ?_, hlate, hsilent, ?_⟩
    · rintro ⟨_, _, _, ⟨⟩, hin, -⟩
      exact absurd (Status.isSuccess_iff.2 hin) hs
    · rintro _ _ _ ⟨⟩ -
      exact ⟨m, rfl, htext, hbody⟩
    · rintro _ _ _ ⟨⟩ hin
      exact absurd (Status.isSuccess_iff.2 hin) hs
    · exact fun _ _ _ => ClientError.statusCode?_eq_some_iff

/-- The result of a call is that of its exchange. -/
theorem settles_conclude (x : Exchange) (w : WireRequest) (timeout : Duration) :
    x.Settles ((x.conclude w timeout).1.mapError .client) := by
  cases x with
  | answered s headers body => exact settles_answered s headers body
  | timedOut =>
    exact .of_error (fun _ _ _ => (nomatch ·)) (fun _ => ⟨_, rfl⟩) (by rintro (h | h) <;> cases h)
  | unreachable => exact .of_error (fun _ _ _ => (nomatch ·)) (nomatch ·) fun _ => ⟨_, rfl⟩
  | brokenOff => exact .of_error (fun _ _ _ => (nomatch ·)) (nomatch ·) fun _ => ⟨_, rfl⟩

/-- The results of an answer, by its status and its body. -/
theorem Settles.cases_of_answered {s : Nat} {headers : List Header} {body : BodyOutcome}
    {result : Except ApiError HttpResponse} (h : (answered s headers body).Settles result) :
    (200 ≤ s ∧ s ≤ 299) ∧ (∃ response, result = .ok response) ∨
      (200 ≤ s ∧ s ≤ 299) ∧ (∀ bs, body ≠ .complete bs) ∧
        (∃ f, result = .error (.client (.request f))) ∨
      ¬ (200 ≤ s ∧ s ≤ 299) ∧ ∃ m, result = .error (.client (.httpStatus s m)) := by
  by_cases hs : 200 ≤ s ∧ s ≤ 299
  · by_cases hb : ∃ bs, body = .complete bs
    · obtain ⟨bs, rfl⟩ := hb
      exact .inl ⟨hs, _, (h.ok_iff _).2 ⟨s, headers, bs, rfl, hs, rfl⟩⟩
    · have hn : ∀ bs, body ≠ .complete bs := not_exists.1 hb
      exact .inr (.inl ⟨hs, hn, h.unread s headers body rfl hs hn⟩)
  · obtain ⟨m, hm, -⟩ := h.failed s headers body rfl hs
    exact .inr (.inr ⟨hs, m, hm⟩)

end Exchange

namespace HttpTransport

/-- **The result of an exchange.** A request that passes the checks has the result that its exchange
settles, whatever the network answers; if no exchange can be made of it, the result is a fault of
the exchange. -/
theorem settles_of_admits [DomainNames] {t : HttpTransport} {r q : Request} {options : HttpOptions}
    {u : Url} {hs : List Header} (h : t.Admits r options.headers q u hs) (net : Network) :
    let w := WireRequest.compose q u hs t.defaultHeaders
    (w.isSendable = true →
      (net w (options.timeout.getD t.timeout)).Settles (t.run net r options).result) ∧
      (w.isSendable = false →
        ∃ f, (t.run net r options).result = .error (.client (.request f))) := by
  intro w
  rw [run_of_admits h net]
  refine ⟨fun hw => ?_, fun hw => ?_⟩
  · rw [if_pos hw]
    exact Exchange.settles_conclude _ _ _
  · rw [if_neg (Bool.eq_false_iff.1 hw)]
    exact ⟨_, rfl⟩

/-- A server that is not available, and whose answers break off. -/
def unavailable : Network := fun _ _ => .answered 503 [] .cutOff

/-- The text of the status stands in for the body that was not read. -/
theorem settles_of_admits_unavailable :
    (ofUrl apiBase).Admits (getRequest "users") HttpOptions.none.headers (getRequest "users")
        { apiBase with path := "/v1/users" } [] ∧
      (WireRequest.compose (getRequest "users") { apiBase with path := "/v1/users" } []
        []).isSendable = true ∧
      ((ofUrl apiBase).run unavailable (getRequest "users") .none).result =
        .error (.client (.httpStatus 503 "503 Service Unavailable")) := by
  have hjoin : joinRelative apiBase (getRequest "users") =
      .ok { apiBase with path := "/v1/users" } := by rfl
  have hadmits : (ofUrl apiBase).Admits (getRequest "users") HttpOptions.none.headers
      (getRequest "users") { apiBase with path := "/v1/users" } [] := ⟨.nil, hjoin, .nil⟩
  have hsendable : (WireRequest.compose (getRequest "users") { apiBase with path := "/v1/users" } []
      []).isSendable = true := by decide +kernel
  have hsettles := (settles_of_admits hadmits unavailable).1 hsendable
  obtain ⟨m, hresult, -, hm⟩ := hsettles.failed 503 [] .cutOff rfl (by decide)
  rw [hm fun _ => (nomatch ·)] at hresult
  exact ⟨hadmits, hsendable, hresult⟩

end HttpTransport
end RestDispatch
