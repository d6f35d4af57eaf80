import RestDispatch.Proofs.Http.DefaultHeaders
import RestDispatch.Proofs.Http.LoadedTimeout

/-!
# Timeouts that are told

A call whose exchange is not answered in time tells how long it waited: for the timeout of its own
options, or else for that of the transport, which is the last one that it was built with. The
milliseconds are told in 64 bits, but a duration may have more of them. `timeout_told_iff` says that
the number is exact as long as it fits, and what is told otherwise.
-/

namespace RestDispatch

theorem Duration.wholeMillis_ofSeconds (n : UInt64) :
    (ofSeconds n).wholeMillis = n.toNat * 1000 := by
  rw [wholeMillis, ofSeconds, Nat.zero_div, Nat.add_zero]

namespace HttpConfig

/-- How a configuration comes to say that a transport waits for a time. -/
inductive Waits [DomainNames] : HttpConfig → Duration → Prop
  | ofUrl (u : Url) : Waits (.ofUrl u) defaultTimeout
  | ofLookup {lookup : String → Option String} {c : HttpConfig} {n : UInt64}
      (h : (HttpConfig.ofLookup lookup).1 = .ok c) (hn : AsksFor lookup n.toNat) :
      Waits c (.ofSeconds n)
  | withTimeout {c : HttpConfig} {d : Duration} (h : Waits c d) (e : Duration) :
      Waits (c.withTimeout e) e
  | withHeader {c : HttpConfig} {d : Duration} (h : Waits c d) (name value : String) :
      Waits (c.withHeader name value) d

theorem Waits.timeout_eq [DomainNames] {c : HttpConfig} {d : Duration} (h : c.Waits d) :
    c.timeout = d := by
  induction h with
  | ofUrl => rfl
  | ofLookup h hn =>
    rw [fst_ofLookup, read_eq_ok_iff] at h
    obtain ⟨u, m, -, hm, rfl⟩ := h
    rw [UInt64.toNat_inj.1 (hm.unique hn)]
  | withTimeout => rfl
  | withHeader _ _ _ ih => exact ih

end HttpConfig

namespace HttpTransport

/-- How a transport comes to wait for a time by default. -/
inductive Waits [DomainNames] : HttpTransport → Duration → Prop
  | ofUrl (u : Url) : Waits (.ofUrl u) HttpConfig.defaultTimeout
  | ofConfig {c : HttpConfig} {t : HttpTransport} {d : Duration} (h : c.Waits d)
      (ht : HttpTransport.ofConfig c = .ok t) : Waits t d
  | withTimeout {t : HttpTransport} {d : Duration} (h : Waits t d) (e : Duration) :
      Waits (t.withTimeout e) e
  | withHeader {t t' : HttpTransport} {d : Duration} {p : String × String} (h : Waits t d)
      (ht : t.withHeader p = .ok t') : Waits t' d
  | withInterceptor {t : HttpTransport} {d : Duration} (h : Waits t d) (i : Interceptor) :
      Waits (t.withInterceptor i) d

theorem timeout_of_withHeader {t t' : HttpTransport} {p : String × String}
    (h : t.withHeader p = .ok t') : t'.timeout = t.timeout := by
  unfold withHeader at h
  cases hp : Header.ofPair p with
  | error f => rw [hp] at h; cases h
  | ok g => rw [hp] at h; cases h; rfl

theorem timeout_of_ofConfig {c : HttpConfig} {t : HttpTransport} (h : ofConfig c = .ok t) :
    t.timeout = c.timeout := by
  rw [ofConfig_eq] at h
  split at h
  · cases h
  · cases h
    rfl

theorem Waits.timeout_eq [DomainNames] {t : HttpTransport} {d : Duration} (h : t.Waits d) :
    t.timeout = d := by
  induction h with
  | ofUrl => rfl
  | ofConfig h ht => rw [timeout_of_ofConfig ht, h.timeout_eq]
  | withTimeout => rfl
  | withHeader _ ht ih => rw [timeout_of_withHeader ht, ih]
  | withInterceptor _ _ ih => exact ih

/-- An exchange that is not answered in time is told with the milliseconds that it was given, as far
as they fit. -/
theorem result_of_timedOut [DomainNames] {t : HttpTransport} {net : Network} {r : Request}
    {options : HttpOptions} {w : WireRequest} (hw : (t.run net r options).attempted = some w)
    (hlate : net w (options.timeout.getD t.timeout) = .timedOut) :
    (t.run net r options).result =
      .error (.client (.timeout (options.timeout.getD t.timeout).wholeMillis.toUInt64)) := by
  obtain ⟨q, u, hs, hadmits, rfl, hsendable⟩ := attempted_eq_some_iff.1 hw
  rw [run_of_admits hadmits, if_pos hsendable, hlate]
  rfl

/-- **The timeout that a call tells.** A call waits for the timeout of its own options, or else for
that of its transport. If its exchange is not answered in time, it tells the whole milliseconds of
that timeout modulo `2 ^ 64`: exactly those if they fit, and fewer otherwise. Of timeouts in whole
seconds those up to 18446744073709551 seconds are told exactly, although more can be configured. -/
theorem timeout_told_iff [DomainNames] {t : HttpTransport} {d : Duration} (ht : t.Waits d)
    {net : Network} {r : Request} {options : HttpOptions} {w : WireRequest}
    (hw : (t.run net r options).attempted = some w)
    (hlate : net w (options.timeout.getD d) = .timedOut) :
    ∃ ms : UInt64, (t.run net r options).result = .error (.client (.timeout ms)) ∧
      ms.toNat = (options.timeout.getD d).wholeMillis % 2 ^ 64 ∧
      (ms.toNat = (options.timeout.getD d).wholeMillis ↔
        (options.timeout.getD d).wholeMillis < 2 ^ 64) ∧
      ∀ n, options.timeout.getD d = .ofSeconds n →
        (ms.toNat = n.toNat * 1000 ↔ n.toNat ≤ 18446744073709551) := by
  obtain rfl := ht.timeout_eq
  have hmod : (options.timeout.getD t.timeout).wholeMillis.toUInt64.toNat =
      (options.timeout.getD t.timeout).wholeMillis % 2 ^ 64 := UInt64.toNat_ofNat'
  refine ⟨_, result_of_timedOut hw hlate, hmod, ?_, fun n hn => ?_⟩
  · rw [hmod, Nat.mod_eq_iff_lt (by decide)]
  · rw [hmod, hn, Duration.wholeMillis_ofSeconds, Nat.mod_eq_iff_lt (by decide)]
    omega

/-- A network in which nothing is answered in time. -/
def stalled : Network := fun _ _ => .timedOut

/-- A transport for the base of the samples attempts every call to `users`. -/
theorem attempted_users (d : Duration) (net : Network) :
    ∃ w, (((ofUrl apiBase).withTimeout d).run net (getRequest "users") .none).attempted =
      some w := by
  have hjoin : joinRelative apiBase (getRequest "users") =
      .ok { apiBase with path := "/v1/users" } := by rfl
  have hadmits : ((ofUrl apiBase).withTimeout d).Admits (getRequest "users")
      HttpOptions.none.headers (getRequest "users") { apiBase with path := "/v1/users" } [] :=
    ⟨.nil, hjoin, .nil⟩
  have hsendable : (WireRequest.compose (getRequest "users") { apiBase with path := "/v1/users" } []
      []).isSendable = true := by decide +kernel
  exact ⟨_, attempted_eq_some_iff.2 ⟨_, _, _, hadmits, rfl, hsendable⟩⟩

/-- A number of seconds loads as the timeout of such a transport. -/
theorem loads_seconds (n : UInt64) (text : String) (h : text.toList = Nat.toDigits 10 n.toNat) :
    (HttpConfig.ofLookup (HttpConfig.bothVariables "https://api.example.com/v1/" text)).1 =
        .ok ⟨apiBase, .ofSeconds n, []⟩ ∧
      HttpConfig.AsksFor (HttpConfig.bothVariables "https://api.example.com/v1/" text) n.toNat := by
  have hask : HttpConfig.AsksFor (HttpConfig.bothVariables "https://api.example.com/v1/" text)
      n.toNat :=
    .inr ⟨text, rfl, HttpConfig.isSeconds_toDigits [] [] 0 _ nofun nofun (by simpa using h)⟩
  refine ⟨?_, hask⟩
  rw [HttpConfig.fst_ofLookup, HttpConfig.read_eq_ok_iff]
  exact ⟨_, n, HttpConfig.namesBase_bothVariables text, hask, rfl⟩

/-- The timeout of an environment is told as the milliseconds that it is. -/
theorem timeout_told_five :
    let lookup := HttpConfig.bothVariables "https://api.example.com/v1/" "5"
    let t := (ofUrl apiBase).withTimeout (.ofSeconds 5)
    (HttpConfig.ofLookup lookup).1 = .ok ⟨apiBase, .ofSeconds 5, []⟩ ∧
      ofConfig ⟨apiBase, .ofSeconds 5, []⟩ = .ok t ∧
      (t.run stalled (getRequest "users") .none).result = .error (.client (.timeout 5000)) := by
  intro lookup t
  obtain ⟨hload, hask⟩ := loads_seconds 5 "5" (by decide)
  obtain ⟨w, hw⟩ := attempted_users (.ofSeconds 5) stalled
  have hwaits : t.Waits (.ofSeconds 5) := .ofConfig (.ofLookup hload hask) rfl
  obtain ⟨ms, hresult, -, -, hms⟩ := timeout_told_iff hwaits hw rfl
  obtain rfl : ms = 5000 := UInt64.toNat_inj.1 ((hms 5 rfl).2 (by decide))
  exact ⟨hload, rfl, hresult⟩

/-- A timeout of more milliseconds than fit is told as less than half a second. -/
theorem timeout_told_wrapped :
    let lookup := HttpConfig.bothVariables "https://api.example.com/v1/" "18446744073709552"
    let t := (ofUrl apiBase).withTimeout (.ofSeconds 18446744073709552)
    (HttpConfig.ofLookup lookup).1 = .ok ⟨apiBase, .ofSeconds 18446744073709552, []⟩ ∧
      ofConfig ⟨apiBase, .ofSeconds 18446744073709552, []⟩ = .ok t ∧
      t.timeout.wholeMillis = 18446744073709552000 ∧
      (t.run stalled (getRequest "users") .none).result = .error (.client (.timeout 384)) := by
  intro lookup t
  obtain ⟨w, hw⟩ := attempted_users (.ofSeconds 18446744073709552) stalled
  refine ⟨(loads_seconds 18446744073709552 _ (by decide)).1, rfl, by decide, ?_⟩
  rw [result_of_timedOut hw rfl]
  rfl

end HttpTransport
end RestDispatch
