import RestDispatch.Proofs.Http.Admission
import RestDispatch.Proofs.Json.RoundTrip
import RestDispatch.Response

/-!
# Bodies that come back

What is sent as the body of a request is the text of a JSON value. A server that sends it back sends
a text that is read as the value.
-/

namespace RestDispatch

/-- The interceptors that accept a request leave one request. -/
theorem Interceptors.Accept.unique {is : List Interceptor} {r q s : Request}
    (hq : Accept is r q) (hs : Accept is r s) : q = s := by
  induction hq with
  | nil => cases hs; rfl
  | cons hi _ ih =>
    cases hs with
    | cons hj hs =>
      cases hi.symm.trans hj
      exact ih hs

namespace HttpTransport

/-- **What was sent as a body is read as the body.** Where the interceptors leave a request whose
body is a JSON value without floating-point numbers, with the fields of its objects in the order of
their names and nested at most 127 deep, the octets of the exchange that is attempted are read as
the value by the JSON format of any value. -/
theorem parse_sent_body [DomainNames] {net : Network} {t : HttpTransport} {r q : Request}
    {options : HttpOptions} {w : WireRequest} (hw : (t.run net r options).attempted = some w)
    (hq : Interceptors.Accept t.interceptors.chain r q) {v : Json} (hbody : q.body = some v)
    (hv : v.Plain) (hdepth : v.depth ≤ 127) :
    (ResponseFormat.json .any).parse w.body = .ok (.datum v) := by
  obtain ⟨q', u, hs, ha, rfl, -⟩ := attempted_eq_some_iff.1 hw
  cases hq.unique ha.accepted
  have hoctets : (WireRequest.compose q u hs t.defaultHeaders).body = Utf8.encode v.text := by
    simp only [WireRequest.compose, WireRequest.bodyOctets, hbody]
    rfl
  rw [hoctets, ResponseFormat.parse, TypedFormat.parse, if_neg hv.encode_text_ne_nil,
    Json.parseAs_text hv hdepth]
  rfl

/-- A body with a list, an object and a string of more than plain characters. -/
def nestedBody : Json :=
  .object [("list", .array [.number (.integer ⟨-1, by decide, by decide⟩), .string "\"\n\u00e9"]),
    ("object", .object [])]

/-- Such a body comes back. -/
theorem parse_sent_body_nested :
    let r := { getRequest "users" with method := .post, body := some nestedBody }
    nestedBody.Plain ∧ nestedBody.depth ≤ 127 ∧
      ∃ w, ((ofUrl apiBase).run (fun _ _ => .unreachable) r .none).attempted = some w ∧
        (ResponseFormat.json .any).parse w.body = .ok (.datum nestedBody) := by
  intro r
  have hlist : Json.Plain (.array
      [.number (.integer ⟨-1, by decide, by decide⟩), .string "\"\n\u00e9"]) :=
    .array (List.forall_mem_cons.2 ⟨.integer _, List.forall_mem_cons.2 ⟨.string _, nofun⟩⟩)
  have hplain : nestedBody.Plain :=
    .object (List.forall_mem_cons.2 ⟨hlist, List.forall_mem_cons.2 ⟨.object nofun .nil, nofun⟩⟩)
      (List.pairwise_pair.2 (by decide))
  have hdepth : nestedBody.depth ≤ 127 := by decide
  have hsent : ((ofUrl apiBase).run (fun _ _ => .unreachable) r .none).attempted.isSome = true := by
    decide +kernel
  obtain ⟨w, hw⟩ := Option.isSome_iff_exists.1 hsent
  exact ⟨hplain, hdepth, w, hw, parse_sent_body hw .nil rfl hplain hdepth⟩

end HttpTransport
end RestDispatch
