import RestDispatch.Proofs.Http.CallHeaders

/-!
# The headers of a configuration

A configuration lists headers, and the transport that is built from it sends them with every
request. It keeps one value for each name, told without regard to case: the last of the list.
`sent_iff_last` says which headers of a configuration a request is sent with, and with which error a
transport cannot be built.
-/

namespace RestDispatch

/-- The values that a configuration gives to a header, told without regard to case. -/
def HttpConfig.values (c : HttpConfig) (name : String) : List String :=
  (c.headers.filter fun p => Header.fold p.1 == Header.fold name).map Prod.snd

namespace Header

theorem mem_values_iff {name value : String} {hs : List Header} :
    value ∈ values name hs ↔ (⟨name, value⟩ : Header) ∈ hs := by
  simp only [values, List.mem_map, List.mem_filter, beq_iff_eq]
  constructor
  · rintro ⟨h, ⟨hm, rfl⟩, rfl⟩
    exact hm
  · exact fun hm => ⟨_, ⟨hm, rfl⟩, rfl⟩

theorem values_cons (name : String) (h : Header) (hs : List Header) :
    values name (h :: hs) = (if h.name = name then [h.value] else []) ++ values name hs := by
  rw [← List.singleton_append, values_append, values_singleton]

/-- Headers without those of a name have the values that they had under any other name. -/
theorem values_filter_ne {name other : String} (hn : name ≠ other) (hs : List Header) :
    values other (hs.filter (·.name != name)) = values other hs := by
  rw [values, List.filter_filter]
  congr 1
  refine List.filter_congr fun h _ => ?_
  by_cases ho : h.name = other
  · simp [ho, hn.symm]
  · simp [ho]

/-- A header that is put in is the only one of its name, and changes no other name. -/
theorem values_insert (name : String) (h : Header) (hs : List Header) :
    values name (h.insert hs) = if h.name = name then [h.value] else values name hs := by
  induction hs with
  | nil => exact values_singleton name h
  | cons g gs ih =>
    rw [insert]
    split
    · next hg =>
      rw [values_cons, values_cons, hg]
      by_cases hn : h.name = name
      · have hrest : values name (gs.filter (·.name != h.name)) = [] := by
          simp [values, hn, List.filter_filter]
        rw [if_pos hn, if_pos hn, hrest, List.append_nil]
      · rw [if_neg hn, if_neg hn, if_neg hn, values_filter_ne hn]
    · next hg =>
      rw [values_cons, values_cons, ih]
      by_cases hn : h.name = name
      · rw [if_pos hn, if_pos hn, if_neg fun e => hg (e.trans hn.symm), List.nil_append]
      · rw [if_neg hn, if_neg hn]

/-- Headers that are put in one after the other leave the last value of each of their names. -/
theorem values_foldl_insert (name : String) (hs ds : List Header) :
    values name (hs.foldl (fun ds h => h.insert ds) ds) =
      ((values name hs).getLast?.map ([·])).getD (values name ds) := by
  induction hs generalizing ds with
  | nil => rfl
  | cons h hs ih =>
    rw [List.foldl_cons, ih, values_cons, values_insert]
    split
    · rw [List.singleton_append, List.getLast?_cons, Option.map_some, Option.getD_some]
      cases (values name hs).getLast? <;> rfl
    · rfl

end Header

namespace WireRequest

/-- Under the name of a default header, a request whose call names none has its own values, or else
those of the defaults. -/
theorem values_compose_defaults {r : Request} {u : Url} {defaults : List Header} {name : String}
    (h : Header.values name defaults ≠ []) :
    Header.values name (compose r u [] defaults).headers =
      if Header.values name (ownHeaders u r.body) = [] then Header.values name defaults
      else Header.values name (ownHeaders u r.body) := by
  have hdefaults : Header.values name (Header.fill defaults [acceptAny]) =
      Header.values name defaults := by
    rw [Header.values_fill, if_pos (Header.has_eq_true_iff.2 h), List.append_nil]
  rw [compose, List.append_nil, Header.values_fill, hdefaults]
  by_cases hown : Header.values name (ownHeaders u r.body) = []
  · have hhas : ¬ Header.has name (ownHeaders u r.body) = true :=
      fun hn => Header.has_eq_true_iff.1 hn hown
    rw [if_pos hown, if_neg hhas, hown, List.nil_append]
  · rw [if_neg hown, if_pos (Header.has_eq_true_iff.2 hown), List.append_nil]

end WireRequest

namespace HttpTransport

/-- Headers that are added one after the other are put in one after the other, unless a pair is no
header. -/
theorem withHeaders_eq (t : HttpTransport) (ps : List (String × String)) :
    t.withHeaders ps = (Header.ofPairs ps).map fun hs =>
      { t with defaultHeaders := hs.foldl (fun ds h => h.insert ds) t.defaultHeaders } := by
  induction ps generalizing t with
  | nil => rfl
  | cons p ps ih =>
    rw [withHeaders, List.foldlM_cons, withHeader, Header.ofPairs]
    cases hp : Header.ofPair p with
    | error f => rfl
    | ok h =>
      refine (ih _).trans ?_
      cases Header.ofPairs ps <;> rfl

/-- A configuration makes a transport of its headers, unless a pair is none. -/
theorem ofConfig_eq (c : HttpConfig) :
    ofConfig c = match Header.ofPairs c.headers with
      | .error f => .error f.error
      | .ok hs =>
        .ok ⟨c.baseUrl, c.timeout, hs.foldl (fun ds h => h.insert ds) [], .empty⟩ := by
  rw [ofConfig, withHeaders_eq]
  cases Header.ofPairs c.headers <;> rfl

theorem ofConfig_eq_error_iff {c : HttpConfig} {e : ApiError} :
    ofConfig c = .error e ↔ ∃ f, Header.FirstFault c.headers f ∧ e = f.error := by
  simp only [ofConfig_eq, ← Header.ofPairs_eq_error_iff]
  cases Header.ofPairs c.headers with
  | error g => simp [eq_comm]
  | ok hs => simp

/-- A transport that a configuration makes has its base and no interceptors, and of the values of
each header the last. -/
theorem of_ofConfig_eq_ok {c : HttpConfig} {t : HttpTransport} (h : ofConfig c = .ok t) :
    t.baseUrl = c.baseUrl ∧ t.interceptors = .empty ∧
      ∀ name, Header.values (Header.fold name) t.defaultHeaders =
        (c.values name).getLast?.toList := by
  rw [ofConfig_eq] at h
  cases hps : Header.ofPairs c.headers with
  | error f => rw [hps] at h; cases h
  | ok hs =>
    rw [hps] at h
    cases h
    refine ⟨rfl, rfl, fun name => ?_⟩
    have hvalues : Header.values (Header.fold name) hs = c.values name :=
      Header.values_of_forall₂ (Header.ofPairs_eq_ok_iff.1 hps) name
    rw [Header.values_foldl_insert, hvalues]
    cases (c.values name).getLast? <;> rfl

/-- A pair of a configuration gives its header a value. -/
theorem mem_values_of_mem {c : HttpConfig} {p : String × String} (h : p ∈ c.headers) :
    p.2 ∈ c.values p.1 :=
  List.mem_map.2 ⟨p, List.mem_filter.2 ⟨h, beq_self_eq_true _⟩, rfl⟩

/-- **The headers of a configuration.** No transport can be built exactly if some pair is no header,
and the error is that of the first such pair. Otherwise a request without a body whose call names no
headers is sent with a pair of the configuration exactly if its value is the last one that the
configuration gives to the name, told without regard to case; but where the URL has a user, that
user alone is the authorization. -/
theorem sent_iff_last [DomainNames] (c : HttpConfig) :
    (∀ e, ofConfig c = .error e ↔ ∃ f, Header.FirstFault c.headers f ∧ e = f.error) ∧
      ∀ t, ofConfig c = .ok t → ∀ net r options w, r.body = none → options.headers = [] →
        (t.run net r options).attempted = some w →
          ∃ u, joinRelative c.baseUrl r = .ok u ∧ ∀ p ∈ c.headers,
            (¬ (Header.fold p.1 = "authorization" ∧ (WireRequest.user? u).isSome = true) →
              ((⟨Header.fold p.1, p.2⟩ : Header) ∈ w.headers ↔
                (c.values p.1).getLast? = some p.2)) ∧
            ∀ user, Header.fold p.1 = "authorization" → WireRequest.user? u = some user →
              ((⟨Header.fold p.1, p.2⟩ : Header) ∈ w.headers ↔
                p.2 = (WireRequest.authorization user.1 user.2).value) := by
  refine ⟨fun e => ofConfig_eq_error_iff, ?_⟩
  intro t ht net r options w hbody hheaders hw
  obtain ⟨hbase, hempty, hdefaults⟩ := of_ofConfig_eq_ok ht
  obtain ⟨q, u, hs, ⟨haccept, hjoin, hheaded⟩, rfl, -⟩ := attempted_eq_some_iff.1 hw
  rw [hempty] at haccept
  cases haccept
  rw [hheaders] at hheaded
  cases hheaded
  refine ⟨u, hbase ▸ hjoin, fun p hp => ?_⟩
  obtain ⟨v, hv⟩ := Option.ne_none_iff_exists'.1
    (mt List.getLast?_eq_none_iff.1 (List.ne_nil_of_mem (mem_values_of_mem hp)))
  have hlast : Header.values (Header.fold p.1) t.defaultHeaders = [v] := by
    rw [hdefaults, hv, Option.toList_some]
  rw [← Header.mem_values_iff, WireRequest.values_compose_defaults (by simp [hlast]), hlast, hv]
  constructor
  · intro hn
    have hown : Header.values (Header.fold p.1) (WireRequest.ownHeaders u r.body) = [] :=
      WireRequest.values_ownHeaders_eq_nil_iff.2 ⟨hn, by simp [hbody]⟩
    rw [if_pos hown, List.mem_singleton, Option.some.injEq]
    exact eq_comm
  · intro user hn hu
    have hown : Header.values (Header.fold p.1) (WireRequest.ownHeaders u r.body) =
        [(WireRequest.authorization user.1 user.2).value] := by
      rw [WireRequest.values_ownHeaders, hn, hu]
      simp
    rw [hown, if_neg (List.cons_ne_nil _ _), List.mem_singleton]

/-- A configuration that names one header twice, in two spellings. -/
def taggedConfig : HttpConfig :=
  ((HttpConfig.ofUrl apiBase).withHeader "X-Tag" "a").withHeader "x-tag" "b"

/-- The second value of the header is sent. -/
theorem sent_iff_last_tagged :
    ∃ t w, ofConfig taggedConfig = .ok t ∧
      (t.run (fun _ _ => .unreachable) (getRequest "users") .none).attempted = some w ∧
      (⟨"x-tag", "b"⟩ : Header) ∈ w.headers := by
  have ht : ofConfig taggedConfig =
      .ok ⟨apiBase, HttpConfig.defaultTimeout, [⟨"x-tag", "b"⟩], .empty⟩ := by rfl
  have hsent : (run (fun _ _ => .unreachable)
      ⟨apiBase, HttpConfig.defaultTimeout, [⟨"x-tag", "b"⟩], .empty⟩ (getRequest "users")
        .none).attempted.isSome = true := by decide +kernel
  obtain ⟨w, hw⟩ := Option.isSome_iff_exists.1 hsent
  obtain ⟨u, -, hpairs⟩ := (sent_iff_last taggedConfig).2 _ ht _ _ _ w rfl rfl hw
  have hiff := (hpairs ("x-tag", "b") (by simp [taggedConfig, HttpConfig.withHeader])).1
    fun h => absurd h.1 (by decide +kernel)
  exact ⟨_, w, ht, hw, hiff.2 (by decide +kernel)⟩

/-- The first value of the header is lost. -/
theorem tagged_not_sent :
    ∃ t w, ofConfig taggedConfig = .ok t ∧
      (t.run (fun _ _ => .unreachable) (getRequest "users") .none).attempted = some w ∧
      ("X-Tag", "a") ∈ taggedConfig.headers ∧ (⟨"x-tag", "a"⟩ : Header) ∉ w.headers := by
  have hsent : (run (fun _ _ => .unreachable)
      ⟨apiBase, HttpConfig.defaultTimeout, [⟨"x-tag", "b"⟩], .empty⟩ (getRequest "users")
        .none).attempted.map (fun w => Header.values "x-tag" w.headers) = some ["b"] := by
    decide +kernel
  obtain ⟨w, hw, hvalues⟩ := Option.map_eq_some_iff.1 hsent
  refine ⟨_, w, by rfl, hw, by simp [taggedConfig, HttpConfig.withHeader], fun hm => ?_⟩
  rw [← Header.mem_values_iff, hvalues] at hm
  exact absurd hm (by decide)

end HttpTransport
end RestDispatch
