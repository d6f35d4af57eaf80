import Mathlib.Data.List.Forall2
import RestDispatch.Proofs.Http.Origin

/-!
# What is checked before an exchange

A request is checked three times before anything is sent: by the interceptors, when its URL is
joined to the base, and for the headers of the call. `FirstRefusal` is the first check that it does
not pass, and `Admits` what the checks make of a request that passes them all.
`attempted_eq_some_iff` says which exchange is attempted, and `exchanged_once_admitted` that
nothing is sent before the last check and no more than one request is sent.
-/

namespace RestDispatch

namespace Interceptors

/-- What interceptors that all accept a request make of it: each gets what the one before it
left. -/
inductive Accept : List Interceptor → Request → Request → Prop
  | nil {r : Request} : Accept [] r r
  | cons {i : Interceptor} {is : List Interceptor} {r q s : Request} :
      i r = (q, .ok ()) → Accept is q s → Accept (i :: is) r s

/-- Whether the interceptors up to some one accept a request, and that one rejects it with an
error. -/
def Reject (is : List Interceptor) (r : Request) (e : ApiError) : Prop :=
  ∃ before i after q, is = before ++ i :: after ∧ Accept before r q ∧ (i q).2 = .error e

/-- Interceptors that accept a request give the others what they made of it. -/
theorem run_append {before : List Interceptor} {r q : Request} (h : Accept before r q)
    (index : Nat) (is : List Interceptor) :
    run index (before ++ is) r = run (index + before.length) is q := by
  induction h generalizing index with
  | nil => rfl
  | cons hi _ ih =>
    rw [List.cons_append, run, hi]
    refine (ih (index + 1)).trans ?_
    rw [List.length_cons, Nat.add_right_comm, Nat.add_assoc]

/-- A run of interceptors accepts a request and leaves no record, or rejects it. -/
theorem run_cases (is : List Interceptor) (index : Nat) (r : Request) :
    (∃ q, Accept is r q ∧ run index is r = (q, .ok (), [])) ∨
      ∃ e q log, Reject is r e ∧ run index is r = (q, .error e, log) := by
  induction is generalizing index r with
  | nil => exact .inl ⟨r, .nil, rfl⟩
  | cons i is ih =>
    obtain ⟨q, outcome, hi⟩ : ∃ q outcome, i r = (q, outcome) := ⟨_, _, rfl⟩
    rw [run, hi]
    cases outcome with
    | error e => exact .inr ⟨e, q, _, ⟨[], i, is, r, rfl, .nil, by rw [hi]⟩, rfl⟩
    | ok _ =>
      rcases ih (index + 1) q with ⟨s, ha, hs⟩ | ⟨e, s, log, ⟨before, j, after, s', h, hb, hj⟩, hs⟩
      · exact .inl ⟨s, .cons hi ha, hs⟩
      -- the one that rejects now has `i` before it
      · exact .inr ⟨e, s, log, ⟨i :: before, j, after, s', congrArg _ h, .cons hi hb, hj⟩, hs⟩

theorem apply_eq_ok_iff {is : Interceptors} {r q : Request} {log : Log} :
    is.apply r = (q, .ok (), log) ↔ Accept is.chain r q ∧ log = [] := by
  constructor
  · intro h
    rcases run_cases is.chain 0 r with ⟨s, ha, hs⟩ | ⟨e, s, l, -, hs⟩
    · cases hs.symm.trans h
      exact ⟨ha, rfl⟩
    · cases hs.symm.trans h
  · rintro ⟨ha, rfl⟩
    have h := run_append ha 0 []
    rwa [List.append_nil] at h

theorem exists_apply_eq_error_iff {is : Interceptors} {r : Request} {e : ApiError} :
    (∃ q log, is.apply r = (q, .error e, log)) ↔ Reject is.chain r e := by
  constructor
  · rintro ⟨q, log, h⟩
    rcases run_cases is.chain 0 r with ⟨s, -, hs⟩ | ⟨f, s, l, hr, hs⟩
    · cases hs.symm.trans h
    · cases hs.symm.trans h
      exact hr
  · rintro ⟨before, i, after, q, h, hb, hi⟩
    obtain ⟨s, outcome, hs⟩ : ∃ s outcome, i q = (s, outcome) := ⟨_, _, rfl⟩
    rw [hs] at hi
    cases hi
    refine ⟨s, [rejected s before.length e], ?_⟩
    rw [apply, h, run_append hb, run, hs, Nat.zero_add]

end Interceptors

namespace Header

/-- Whether some pair is the first of a list that is no header, and why it is none. -/
def FirstFault (ps : List (String × String)) (f : HeaderFault) : Prop :=
  ∃ before p after, ps = before ++ p :: after ∧ (∀ b ∈ before, ∃ h, ofPair b = .ok h) ∧
    ofPair p = .error f

theorem firstFault_cons_of_ok {p : String × String} {h : Header} (hp : ofPair p = .ok h)
    {ps : List (String × String)} {f : HeaderFault} :
    FirstFault (p :: ps) f ↔ FirstFault ps f := by
  constructor
  · rintro ⟨_ | ⟨b, before⟩, q, after, e, hb, hq⟩
    · cases e
      cases hp.symm.trans hq
    · cases e
      exact ⟨before, q, after, rfl, fun c hc => hb c (.tail _ hc), hq⟩
  · rintro ⟨before, q, after, rfl, hb, hq⟩
    exact ⟨p :: before, q, after, rfl, List.forall_mem_cons.2 ⟨⟨h, hp⟩, hb⟩, hq⟩

theorem firstFault_cons_of_error {p : String × String} {g : HeaderFault} (hp : ofPair p = .error g)
    {ps : List (String × String)} {f : HeaderFault} : FirstFault (p :: ps) f ↔ g = f := by
  constructor
  · rintro ⟨_ | ⟨b, before⟩, q, after, e, hb, hq⟩
    · cases e
      cases hp.symm.trans hq
      rfl
    · cases e
      obtain ⟨h, hb⟩ := hb p (.head _)
      cases hp.symm.trans hb
  · rintro rfl
    exact ⟨[], p, ps, rfl, fun _ hb => (nomatch hb), hp⟩

theorem ofPairs_eq_error_iff {ps : List (String × String)} {f : HeaderFault} :
    ofPairs ps = .error f ↔ FirstFault ps f := by
  induction ps with
  | nil =>
    refine ⟨(nomatch ·), ?_⟩
    rintro ⟨_ | ⟨b, before⟩, q, after, e, -⟩ <;> cases e
  | cons p ps ih =>
    cases hp : ofPair p with
    | error g =>
      rw [firstFault_cons_of_error hp, ofPairs, hp]
      exact ⟨Except.error.inj, congrArg _⟩
    | ok h =>
      rw [firstFault_cons_of_ok hp, ← ih, ofPairs, hp]
      cases ofPairs ps with
      | error g => exact Iff.rfl
      | ok hs => exact ⟨(nomatch ·), (nomatch ·)⟩

theorem ofPairs_eq_ok_iff {ps : List (String × String)} {hs : List Header} :
    ofPairs ps = .ok hs ↔ List.Forall₂ (fun p h => ofPair p = .ok h) ps hs := by
  induction ps generalizing hs with
  | nil =>
    rw [List.forall₂_nil_left_iff, ofPairs, Except.ok.injEq]
    exact eq_comm
  | cons p ps ih =>
    rw [List.forall₂_cons_left_iff, ofPairs]
    constructor
    · intro h
      cases hp : ofPair p with
      | error f => rw [hp] at h; cases h
      | ok g =>
        cases hps : ofPairs ps with
        | error f => rw [hp, hps] at h; cases h
        | ok gs =>
          rw [hp, hps] at h
          cases h
          exact ⟨g, gs, rfl, ih.1 hps, rfl⟩
    · rintro ⟨g, gs, hp, hps, rfl⟩
      rw [hp, ih.2 hps]
      rfl

end Header

namespace HttpTransport

variable {t : HttpTransport} {r : Request}

/-- The error of the first check that a request does not pass, with the headers of its call. -/
inductive FirstRefusal [DomainNames] (t : HttpTransport) (r : Request)
    (headers : List (String × String)) : ApiError → Prop
  | intercepted {e : ApiError} :
      Interceptors.Reject t.interceptors.chain r e → FirstRefusal t r headers e
  | notJoined {q : Request} {f : ConfigError} : Interceptors.Accept t.interceptors.chain r q →
      joinRelative t.baseUrl q = .error f → FirstRefusal t r headers (.config f)
  | badHeader {q : Request} {u : Url} {f : HeaderFault} :
      Interceptors.Accept t.interceptors.chain r q → joinRelative t.baseUrl q = .ok u →
        Header.FirstFault headers f → FirstRefusal t r headers f.error

/-- What the checks make of a request and the headers of its call: the request that the
interceptors leave, its URL and its headers. -/
structure Admits [DomainNames] (t : HttpTransport) (r : Request) (headers : List (String × String))
    (q : Request) (u : Url) (hs : List Header) : Prop where
  accepted : Interceptors.Accept t.interceptors.chain r q
  joined : joinRelative t.baseUrl q = .ok u
  headed : List.Forall₂ (fun p h => Header.ofPair p = .ok h) headers hs

/-- A request passes the checks or fails one of them. -/
theorem firstRefusal_or_admits [DomainNames] (t : HttpTransport) (r : Request)
    (headers : List (String × String)) :
    (∃ e, t.FirstRefusal r headers e) ∨ ∃ q u hs, t.Admits r headers q u hs := by
  rcases Interceptors.run_cases t.interceptors.chain 0 r with ⟨q, ha, -⟩ | ⟨e, -, -, hr, -⟩
  · cases hj : joinRelative t.baseUrl q with
    | error f => exact .inl ⟨_, .notJoined ha hj⟩
    | ok u =>
      cases hh : Header.ofPairs headers with
      | error f => exact .inl ⟨_, .badHeader ha hj (Header.ofPairs_eq_error_iff.1 hh)⟩
      | ok hs => exact .inr ⟨q, u, hs, ha, hj, Header.ofPairs_eq_ok_iff.1 hh⟩
  · exact .inl ⟨e, .intercepted hr⟩

/-- A request that fails a check is not sent, whatever the network would make of it, and the check
gives the error. -/
theorem run_of_firstRefusal [DomainNames] {options : HttpOptions} {e : ApiError}
    (h : t.FirstRefusal r options.headers e) :
    ∃ log, ∀ net, t.run net r options = ⟨[], .error e, log⟩ := by
  cases h with
  | intercepted hr =>
    obtain ⟨q, log, hi⟩ := Interceptors.exists_apply_eq_error_iff.2 hr
    exact ⟨_, fun net => run_of_rejected hi⟩
  | notJoined ha hj =>
    have hi := Interceptors.apply_eq_ok_iff.2 ⟨ha, rfl⟩
    exact ⟨_, fun net => run_of_refused hi hj⟩
  | badHeader ha hj hf =>
    have hi := Interceptors.apply_eq_ok_iff.2 ⟨ha, rfl⟩
    exact ⟨_, fun net => run_of_badHeader hi hj (Header.ofPairs_eq_error_iff.2 hf)⟩

/-- The request on the wire that is made of an admitted request, if it can be sent. -/
theorem run_of_admits [DomainNames] {options : HttpOptions} {q : Request} {u : Url}
    {hs : List Header} (h : t.Admits r options.headers q u hs) (net : Network) :
    let w := WireRequest.compose q u hs t.defaultHeaders
    let timeout := options.timeout.getD t.timeout
    t.run net r options =
      if w.isSendable then
        let (result, status) := (net w timeout).conclude w timeout
        ⟨[w], result.mapError .client, [span r ⟨some u, status, status.map outcomeOf⟩]⟩
      else
        ⟨[], .error (.client (.request (.unsendable w.url.text))),
          [span r ⟨some u, none, none⟩]⟩ :=
  run_of_composed (Interceptors.apply_eq_ok_iff.2 ⟨h.accepted, rfl⟩) h.joined
    (Header.ofPairs_eq_ok_iff.2 h.headed)

/-- The exchanges that are attempted are the one of an admitted request, if it can be sent. -/
theorem exchanges_of_admits [DomainNames] {options : HttpOptions} {q : Request} {u : Url}
    {hs : List Header} (h : t.Admits r options.headers q u hs) (net : Network) :
    (t.run net r options).exchanges =
      if (WireRequest.compose q u hs t.defaultHeaders).isSendable then
        [WireRequest.compose q u hs t.defaultHeaders]
      else [] := by
  rw [run_of_admits h net]
  split <;> rfl

/-- One exchange is attempted at most. -/
theorem length_exchanges_le_one [DomainNames] (net : Network) (t : HttpTransport) (r : Request)
    (options : HttpOptions) : (t.run net r options).exchanges.length ≤ 1 := by
  have hends := run_ends net t r options
  generalize t.run net r options = done at hends
  cases hends with
  | rejected | refused | badHeader | unsendable => exact Nat.zero_le 1
  | exchanged => exact Nat.le_refl 1

/-- The exchange that is attempted is that of an admitted request, if it can be sent. -/
theorem attempted_eq_some_iff [DomainNames] {net : Network} {options : HttpOptions}
    {w : WireRequest} :
    (t.run net r options).attempted = some w ↔
      ∃ q u hs, t.Admits r options.headers q u hs ∧
        w = WireRequest.compose q u hs t.defaultHeaders ∧ w.isSendable = true := by
  constructor
  · intro h
    rcases firstRefusal_or_admits t r options.headers with ⟨e, he⟩ | ⟨q, u, hs, ha⟩
    · obtain ⟨log, hrun⟩ := run_of_firstRefusal he
      rw [hrun] at h
      cases h
    · rw [Run.attempted, exchanges_of_admits ha net] at h
      split at h
      · next hw =>
        cases h
        exact ⟨q, u, hs, ha, rfl, hw⟩
      · cases h
  · rintro ⟨q, u, hs, ha, rfl, hw⟩
    rw [Run.attempted, exchanges_of_admits ha net, if_pos hw, List.head?_cons]

/-- A run depends on the network only by what comes of the exchange that it attempts. -/
theorem run_congr [DomainNames] {net net' : Network} {options : HttpOptions}
    (h : ∀ w ∈ (t.run net r options).exchanges,
      net w (options.timeout.getD t.timeout) = net' w (options.timeout.getD t.timeout)) :
    t.run net r options = t.run net' r options := by
  rcases firstRefusal_or_admits t r options.headers with ⟨e, he⟩ | ⟨q, u, hs, ha⟩
  · obtain ⟨log, hrun⟩ := run_of_firstRefusal he
    rw [hrun, hrun]
  · have hsent := exchanges_of_admits ha net
    rw [run_of_admits ha net, run_of_admits ha net']
    split
    · next hw =>
      rw [if_pos hw] at hsent
      rw [h _ (hsent ▸ List.mem_singleton_self _)]
    · rfl

/-- **What precedes an exchange.** At most one exchange is attempted. A request that fails a check
is not sent, and its error is that of the first check that it fails. Any other request is made into
one on the wire, with the method, the query and the body that the interceptors have left it, and
that is the exchange that is attempted if it can be sent at all. The run depends on nothing else
that the network would answer. -/
theorem exchanged_once_admitted [DomainNames] (t : HttpTransport) (r : Request)
    (options : HttpOptions) :
    (∀ net, (t.run net r options).exchanges.length ≤ 1) ∧
      (∀ e, t.FirstRefusal r options.headers e → ∀ net,
        (t.run net r options).exchanges = [] ∧ (t.run net r options).result = .error e) ∧
      ((∀ e, ¬ t.FirstRefusal r options.headers e) →
        ∃ q u hs w, t.Admits r options.headers q u hs ∧ w.method = q.method ∧
          w.url = (WireRequest.withoutUser u).withPairs q.query.entries ∧
          (∀ v, q.body = some v → w.body = Utf8.encode v.text) ∧ (q.body = none → w.body = []) ∧
          ∀ net, (t.run net r options).exchanges = if w.isSendable then [w] else []) ∧
      ∀ net net', (∀ w ∈ (t.run net r options).exchanges,
          net w (options.timeout.getD t.timeout) = net' w (options.timeout.getD t.timeout)) →
        t.run net r options = t.run net' r options := by
  refine ⟨fun net => length_exchanges_le_one net t r options, ?_, ?_, fun _ _ => run_congr⟩
  · intro e he net
    obtain ⟨log, hrun⟩ := run_of_firstRefusal he
    rw [hrun]
    exact ⟨rfl, rfl⟩
  · intro hn
    obtain ⟨q, u, hs, ha⟩ :=
      (firstRefusal_or_admits t r options.headers).resolve_left fun ⟨e, he⟩ => hn e he
    refine ⟨q, u, hs, WireRequest.compose q u hs t.defaultHeaders, ha, rfl, rfl, ?_, ?_,
      exchanges_of_admits ha⟩
    · intro v hv
      simp [WireRequest.compose, WireRequest.bodyOctets, hv]
    · intro hv
      simp [WireRequest.compose, WireRequest.bodyOctets, hv]

/-- An interceptor that lets no request pass. -/
def locked : Interceptor := fun q => (q, .error (.client (.interceptor "locked")))

/-- A request that no check would let pass ends in the error of the interceptor, also where its URL
is rooted and a header of the call has no name. -/
theorem exchanged_once_admitted_locked :
    let t := (ofUrl apiBase).withInterceptor locked
    let options := HttpOptions.none.withHeader "" "x"
    t.FirstRefusal (getRequest "/users") options.headers (.client (.interceptor "locked")) ∧
      ∀ net, (t.run net (getRequest "/users") options).exchanges = [] ∧
        (t.run net (getRequest "/users") options).result =
          .error (.client (.interceptor "locked")) := by
  intro t options
  have h : t.FirstRefusal (getRequest "/users") options.headers (.client (.interceptor "locked")) :=
    .intercepted ⟨[], locked, [], getRequest "/users", rfl, .nil, rfl⟩
  exact ⟨h, (exchanged_once_admitted t (getRequest "/users") options).2.1 _ h⟩

end HttpTransport
end RestDispatch
