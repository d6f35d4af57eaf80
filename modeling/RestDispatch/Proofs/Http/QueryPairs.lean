import RestDispatch.Proofs.Http.Admission
import RestDispatch.Proofs.Url.Form

/-!
# Query parameters on the wire

A request is sent with its query parameters behind the query that its URL already has.
`pairs_of_attempted` says that whoever reads the query of the URL that is sent finds the pairs of
the joined URL and then the parameters, in the order of their names, and that nothing else of the
URL depends on them.
-/

namespace RestDispatch
namespace Url

/-- The pairs that the query of a URL is read as; no query has none. -/
def pairs (u : Url) : List (String × String) := Form.decode (u.query.getD "").toList

/-- Pairs put behind the query of a URL are read behind its own. -/
theorem pairs_withPairs (u : Url) (ps : List (String × String)) :
    (u.withPairs ps).pairs = u.pairs ++ ps := by
  by_cases hps : ps = []
  · rw [withPairs, if_pos hps, hps, List.append_nil]
  · rw [withPairs, if_neg hps, pairs, Option.getD_some, String.toList_ofList,
      Form.decode_append]
    rfl

@[simp] theorem withPairs_scheme (u : Url) (ps : List (String × String)) :
    (u.withPairs ps).scheme = u.scheme := by
  unfold withPairs
  split <;> rfl

@[simp] theorem withPairs_authority (u : Url) (ps : List (String × String)) :
    (u.withPairs ps).authority = u.authority := by
  unfold withPairs
  split <;> rfl

@[simp] theorem withPairs_path (u : Url) (ps : List (String × String)) :
    (u.withPairs ps).path = u.path := by
  unfold withPairs
  split <;> rfl

end Url

namespace WireRequest

@[simp] theorem withoutUser_scheme (u : Url) : (withoutUser u).scheme = u.scheme := by
  unfold withoutUser
  split <;> rfl

@[simp] theorem withoutUser_path (u : Url) : (withoutUser u).path = u.path := by
  unfold withoutUser
  split <;> rfl

@[simp] theorem withoutUser_pairs (u : Url) : (withoutUser u).pairs = u.pairs := by
  unfold withoutUser
  split <;> rfl

/-- A URL and the same URL without its user have the host and the port in common. -/
@[simp] theorem withoutUser_authority (u : Url) :
    (withoutUser u).authority.map Authority.withoutUser =
      u.authority.map Authority.withoutUser := by
  unfold withoutUser
  split
  · cases u.authority <;> rfl
  · rfl

end WireRequest

namespace HttpTransport

/-- **The query of a call.** The query of the URL that is sent is read as the pairs of the joined
URL and then the parameters of the request as the interceptors leave it, each once and in the order
of their names. The scheme, the host, the port and the path are those of the joined URL. -/
theorem pairs_of_attempted [DomainNames] {net : Network} {t : HttpTransport} {r : Request}
    {options : HttpOptions} {w : WireRequest} (h : (t.run net r options).attempted = some w) :
    ∃ q u, Interceptors.Accept t.interceptors.chain r q ∧ joinRelative t.baseUrl q = .ok u ∧
      (∃ parameters, w.url.pairs = u.pairs ++ parameters ∧
        (parameters.map Prod.fst).Pairwise (· < ·) ∧
        ∀ k v, (k, v) ∈ parameters ↔ q.query.get? k = some v) ∧
      w.url.scheme = u.scheme ∧
      w.url.authority.map Authority.withoutUser = u.authority.map Authority.withoutUser ∧
      w.url.path = u.path := by
  obtain ⟨q, u, hs, ha, rfl, -⟩ := attempted_eq_some_iff.1 h
  have hurl : (WireRequest.compose q u hs t.defaultHeaders).url =
      (WireRequest.withoutUser u).withPairs q.query.entries := rfl
  have hpairs : ((WireRequest.withoutUser u).withPairs q.query.entries).pairs =
      u.pairs ++ q.query.entries := by
    rw [Url.pairs_withPairs, WireRequest.withoutUser_pairs]
  refine ⟨q, u, ha.accepted, ha.joined, ⟨q.query.entries, hpairs, q.query.increasing_keys, ?_⟩, ?_⟩
  · exact fun k v => (Table.lookupEntry_eq_some_iff q.query.nodup_keys).symm
  · rw [hurl]
    simp

/-- A request whose URL has a query and a fragment, and whose parameter consists of signs that mean
something in a query. -/
def signsRequest : Request :=
  { getRequest "users?page=1&#top" with query := Table.empty.insert "a&b= c" "+%41=é" }

/-- The parameter of signs is read again behind the query of the URL. -/
theorem pairs_of_attempted_signs :
    ∃ w, (run (fun _ _ => .unreachable) (ofUrl apiBase) signsRequest .none).attempted = some w ∧
      w.url.query = some "page=1&&a%26b%3D+c=%2B%2541%3D%C3%A9" ∧
      ∃ parameters, w.url.pairs = [("page", "1")] ++ parameters ∧
        ("a&b= c", "+%41=é") ∈ parameters := by
  have hsent : ((run (fun _ _ => .unreachable) (ofUrl apiBase) signsRequest .none).attempted.map
      fun w => w.url.query) = some (some "page=1&&a%26b%3D+c=%2B%2541%3D%C3%A9") := by
    decide +kernel
  obtain ⟨w, hw, hquery⟩ := Option.map_eq_some_iff.1 hsent
  refine ⟨w, hw, hquery, ?_⟩
  obtain ⟨q, u, hq, hu, ⟨parameters, hpairs, -, hget⟩, -⟩ := pairs_of_attempted hw
  cases hq
  have hjoined : joinRelative apiBase signsRequest =
      .ok { apiBase with
        path := "/v1/users", query := some "page=1&", fragment := some "top" } := by
    rfl
  cases hjoined.symm.trans hu
  have hown : ({ apiBase with
        path := "/v1/users", query := some "page=1&", fragment := some "top" } : Url).pairs =
      [("page", "1")] := by decide +kernel
  exact ⟨parameters, hown ▸ hpairs, (hget _ _).2 (by decide +kernel)⟩

end HttpTransport
end RestDispatch
