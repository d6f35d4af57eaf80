import RestDispatch.Proofs.Http.Admission

/-!
# Chains of interceptors

Interceptors may have effects beside what they make of a request, and `runIn` runs a chain of such
interceptors. One effect is that each of them records when it is asked: the records are the visits
of a run, and `runIn_watched` says that recording them changes nothing else. `apply_pushAll` says
what becomes of two chains of which one is registered behind the other, and which interceptors of a
chain are asked, in which order and how often.
-/

namespace RestDispatch.Interceptors

/-- Registers interceptors in their order. -/
def pushAll (is : Interceptors) (js : List Interceptor) : Interceptors := js.foldl push is

@[simp] theorem chain_pushAll (is : Interceptors) (js : List Interceptor) :
    (is.pushAll js).chain = is.chain ++ js := by
  induction js generalizing is with
  | nil => exact (List.append_nil _).symm
  | cons j js ih =>
    rw [pushAll, List.foldl_cons, ← pushAll, ih, chain_push, List.append_assoc,
      List.singleton_append]

/-! ### Where a run ends -/

theorem run_of_accept {is : List Interceptor} {r q : Request} (h : Accept is r q) (index : Nat) :
    run index is r = (q, .ok (), []) := by
  have := run_append h index []
  rwa [List.append_nil] at this

/-- A run ends with the first interceptor that rejects the request. -/
theorem run_append_cons {before : List Interceptor} {i : Interceptor} {r s q : Request}
    {e : ApiError} (h : Accept before r s) (hi : i s = (q, .error e)) (index : Nat)
    (after : List Interceptor) :
    run index (before ++ i :: after) r =
      (q, .error e, [rejected q (index + before.length) e]) := by
  rw [run_append h, run, hi]

theorem run_append_of_error {is : List Interceptor} {r q : Request} {e : ApiError} {log : Log}
    {index : Nat} (h : run index is r = (q, .error e, log)) (js : List Interceptor) :
    run index (is ++ js) r = (q, .error e, log) := by
  induction is generalizing index r with
  | nil => exact nomatch h
  | cons i is ih =>
    obtain ⟨s, outcome, hi⟩ : ∃ s outcome, i r = (s, outcome) := ⟨_, _, rfl⟩
    rw [run, hi] at h
    rw [List.cons_append, run, hi]
    cases outcome with
    | ok _ => exact ih h
    | error f => exact h

/-- The record of a rejection tells its position. -/
theorem rejected_inj {q : Request} {i j : Nat} {e : ApiError} :
    rejected q i e = rejected q j e ↔ i = j := by
  simp [rejected]

/-- A rejection is recorded at a position that counts from where the chain begins. -/
theorem run_add_of_error {is : List Interceptor} {r q : Request} {e : ApiError} {index k : Nat}
    (h : run index is r = (q, .error e, [rejected q k e])) (n : Nat) :
    run (n + index) is r = (q, .error e, [rejected q (n + k) e]) := by
  induction is generalizing index r with
  | nil => exact nomatch h
  | cons i is ih =>
    obtain ⟨s, outcome, hi⟩ : ∃ s outcome, i r = (s, outcome) := ⟨_, _, rfl⟩
    rw [run, hi] at h
    rw [run, hi]
    cases outcome with
    | ok _ => exact ih h
    | error f =>
      simp only [Prod.mk.injEq, Except.error.injEq, List.cons.injEq, and_true] at h
      obtain ⟨rfl, rfl, hk⟩ := h
      rw [rejected_inj.1 hk]

/-! ### Interceptors with effects -/

section Effects

variable {m : Type → Type} [Monad m]

/-- Runs interceptors with effects, of which the first has the position `index`. -/
def runIn (index : Nat) :
    List (Request → m (Request × Except ApiError Unit)) → Request →
      m (Request × Except ApiError Unit × Log)
  | [], r => pure (r, .ok (), [])
  | i :: is, r => do
    match ← i r with
    | (q, .ok ()) => runIn (index + 1) is q
    | (q, .error e) => return (q, .error e, [rejected q index e])

/-- A chain runs up to any place in it, and on from there if everything before has accepted. -/
theorem runIn_append [LawfulMonad m] (index : Nat)
    (is js : List (Request → m (Request × Except ApiError Unit))) (r : Request) :
    runIn index (is ++ js) r = do
      match ← runIn index is r with
      | (q, .ok (), _) => runIn (index + is.length) js q
      | (q, .error e, log) => return (q, .error e, log) := by
  induction is generalizing index r with
  | nil => rw [List.nil_append, runIn, pure_bind]; rfl
  | cons i is ih =>
    rw [List.cons_append, runIn, runIn, bind_assoc]
    refine bind_congr fun
      | (q, .ok ()) => ?_
      | (q, .error e) => ?_
    · dsimp only
      rw [ih, List.length_cons, Nat.add_right_comm, Nat.add_assoc]
    · dsimp only
      rw [pure_bind]

end Effects

/-! ### Visits -/

/-- The positions of the interceptors that are asked, each with the request that it is given. -/
abbrev Visits := List (Nat × Request)

/-- An interceptor that records its position and the request that it is given. -/
def watched (index : Nat) (i : Interceptor) (r : Request) :
    StateM Visits (Request × Except ApiError Unit) := do
  modify (· ++ [(index, r)])
  return i r

/-- Interceptors that record when they are asked. -/
def watchedFrom (index : Nat) (is : List Interceptor) :
    List (Request → StateM Visits (Request × Except ApiError Unit)) :=
  is.mapIdx fun k i => watched (index + k) i

/-- The visits of a run of interceptors, of which the first has the position `index`. -/
def visitsFrom (index : Nat) (is : List Interceptor) (r : Request) : Visits :=
  ((runIn index (watchedFrom index is) r).run []).2

/-- The visits of a run of all interceptors. -/
def visits (is : Interceptors) (r : Request) : Visits := visitsFrom 0 is.chain r

theorem watchedFrom_cons (index : Nat) (i : Interceptor) (is : List Interceptor) :
    watchedFrom index (i :: is) = watched index i :: watchedFrom (index + 1) is := by
  rw [watchedFrom, watchedFrom, List.mapIdx_cons]
  simp only [Nat.add_zero, Nat.add_assoc, Nat.add_comm 1]

theorem watchedFrom_append (index : Nat) (is js : List Interceptor) :
    watchedFrom index (is ++ js) = watchedFrom index is ++ watchedFrom (index + is.length) js := by
  rw [watchedFrom, watchedFrom, watchedFrom, List.mapIdx_append]
  simp only [Nat.add_assoc, Nat.add_comm is.length]

/-- A watched run asks its first interceptor, and the others if that accepts. -/
theorem runIn_watchedFrom_cons (index : Nat) (i : Interceptor) (is : List Interceptor) (r : Request)
    (before : Visits) :
    (runIn index (watchedFrom index (i :: is)) r).run before =
      match i r with
      | (q, .ok ()) => (runIn (index + 1) (watchedFrom (index + 1) is) q).run
          (before ++ [(index, r)])
      | (q, .error e) => ((q, .error e, [rejected q index e]), before ++ [(index, r)]) := by
  obtain ⟨q, outcome, hi⟩ : ∃ q outcome, i r = (q, outcome) := ⟨_, _, rfl⟩
  rw [watchedFrom_cons, runIn]
  simp only [watched, hi]
  cases outcome <;> rfl

/-- That interceptors are watched changes nothing of their run, and the visits are put behind those
that there are. -/
theorem runIn_watched (index : Nat) (is : List Interceptor) (r : Request) (before : Visits) :
    (runIn index (watchedFrom index is) r).run before =
      (run index is r, before ++ visitsFrom index is r) := by
  induction is generalizing index r before with
  | nil => exact congrArg (Prod.mk _) (List.append_nil before).symm
  | cons i is ih =>
    obtain ⟨q, outcome, hi⟩ : ∃ q outcome, i r = (q, outcome) := ⟨_, _, rfl⟩
    rw [visitsFrom, runIn_watchedFrom_cons, runIn_watchedFrom_cons, run, hi]
    cases outcome with
    | ok _ =>
      dsimp only
      rw [ih, ih, List.nil_append, List.append_assoc]
    | error e => rfl

theorem visitsFrom_cons (index : Nat) (i : Interceptor) (is : List Interceptor) (r : Request) :
    visitsFrom index (i :: is) r = (index, r) ::
      match i r with
      | (q, .ok ()) => visitsFrom (index + 1) is q
      | (_, .error _) => [] := by
  obtain ⟨q, outcome, hi⟩ : ∃ q outcome, i r = (q, outcome) := ⟨_, _, rfl⟩
  rw [visitsFrom, runIn_watchedFrom_cons, hi]
  cases outcome with
  | ok _ =>
    dsimp only
    rw [runIn_watched, List.nil_append, List.singleton_append]
  | error e => rfl

/-- Interceptors that accept a request are asked before the others. -/
theorem visitsFrom_append {is : List Interceptor} {r q : Request} (h : Accept is r q) (index : Nat)
    (js : List Interceptor) :
    visitsFrom index (is ++ js) r =
      visitsFrom index is r ++ visitsFrom (index + is.length) js q := by
  have hw := runIn_watched index is r []
  rw [run_of_accept h, List.nil_append] at hw
  have hlength : (watchedFrom index is).length = is.length := List.length_mapIdx
  rw [visitsFrom, watchedFrom_append, runIn_append, hlength, StateT.run_bind, hw]
  exact congrArg Prod.snd (runIn_watched (index + is.length) js q _)

/-- Interceptors behind one that rejects a request are not asked. -/
theorem visitsFrom_append_of_error {is : List Interceptor} {r q : Request} {e : ApiError}
    {log : Log} {index : Nat} (h : run index is r = (q, .error e, log)) (js : List Interceptor) :
    visitsFrom index (is ++ js) r = visitsFrom index is r := by
  have hw := runIn_watched index is r []
  rw [h, List.nil_append] at hw
  rw [visitsFrom, watchedFrom_append, runIn_append, StateT.run_bind, hw]
  rfl

/-- The positions that are asked do not depend on where a chain begins. -/
theorem visitsFrom_add (n index : Nat) (is : List Interceptor) (r : Request) :
    visitsFrom (n + index) is r = (visitsFrom index is r).map fun v => (n + v.1, v.2) := by
  induction is generalizing index r with
  | nil => rfl
  | cons i is ih =>
    rw [visitsFrom_cons, visitsFrom_cons, List.map_cons]
    obtain ⟨q, outcome, hi⟩ : ∃ q outcome, i r = (q, outcome) := ⟨_, _, rfl⟩
    rw [hi]
    cases outcome with
    | ok _ => exact congrArg _ (ih (index + 1) q)
    | error e => rfl

/-- Interceptors that accept a request are asked once each, in their order. -/
theorem map_fst_visitsFrom {is : List Interceptor} {r q : Request} (h : Accept is r q)
    (index : Nat) : (visitsFrom index is r).map Prod.fst = List.range' index is.length := by
  induction h generalizing index with
  | nil => rfl
  | cons hi _ ih =>
    rw [visitsFrom_cons, hi, List.map_cons, List.length_cons, List.range'_succ]
    exact congrArg _ (ih (index + 1))

/-- An interceptor that is asked is given what those before it have made of the request. -/
theorem accept_of_mem_visitsFrom {is : List Interceptor} {index k : Nat} {r s : Request}
    (h : (k, s) ∈ visitsFrom index is r) : ∃ j, k = index + j ∧ Accept (is.take j) r s := by
  induction is generalizing index r with
  | nil => exact nomatch h
  | cons i is ih =>
    rw [visitsFrom_cons, List.mem_cons] at h
    rcases h with h | h
    · cases h
      exact ⟨0, rfl, .nil⟩
    · obtain ⟨q, outcome, hi⟩ : ∃ q outcome, i r = (q, outcome) := ⟨_, _, rfl⟩
      rw [hi] at h
      cases outcome with
      | ok _ =>
        obtain ⟨j, rfl, hj⟩ := ih h
        exact ⟨j + 1, by omega, .cons hi hj⟩
      | error e => exact nomatch h

/-! ### What becomes of a request -/

/-- What becomes of a request in a chain: the interceptors accept what those before them have made
of it, or one of them rejects that. The visits are at the positions up to the last one that is
asked, once each and in order. -/
inductive Handles (is : List Interceptor) (r : Request) :
    Request × Except ApiError Unit × Log → Visits → Prop
  | accepted {q : Request} {visits : Visits} (h : Accept is r q)
      (hv : visits.map Prod.fst = List.range is.length) : Handles is r (q, .ok (), []) visits
  | rejected {before after : List Interceptor} {i : Interceptor} {s q : Request} {e : ApiError}
      {visits : Visits} (his : is = before ++ i :: after) (h : Accept before r s)
      (hi : i s = (q, .error e)) (hv : visits.map Prod.fst = List.range (before.length + 1)) :
      Handles is r (q, .error e, [rejected q before.length e]) visits

theorem handles_apply (is : Interceptors) (r : Request) :
    Handles is.chain r (is.apply r) (is.visits r) := by
  rcases run_cases is.chain 0 r with ⟨q, ha, hr⟩ | ⟨e, -, -, ⟨before, i, after, s, his, hb, hi⟩, -⟩
  · rw [apply, hr]
    refine .accepted ha ?_
    rw [visits, map_fst_visitsFrom ha, List.range_eq_range']
  · obtain ⟨q, outcome, hs⟩ : ∃ q outcome, i s = (q, outcome) := ⟨_, _, rfl⟩
    rw [hs] at hi
    cases hi
    rw [apply, his, run_append_cons hb hs, Nat.zero_add]
    refine .rejected rfl hb hs ?_
    rw [visits, his, visitsFrom_append hb, visitsFrom_cons, hs, List.map_append,
      map_fst_visitsFrom hb, ← List.range_eq_range', List.range_succ, Nat.zero_add]
    rfl

/-- **Chains that are put together.** Every chain handles every request, watched or not: it is
accepted by all of the interceptors, each asked once and in order, and nothing is recorded; or it is
rejected by one of them, after which none is asked, with the error of that one and one record of its
position. Each that is asked is given what those before it have made of the request. Of two chains,
one registered behind the other, the second handles what the first has left if the first accepts,
only that its positions are counted from the end of the first; and if the first rejects, the second
is not asked. -/
theorem apply_pushAll (a b : List Interceptor) (r : Request) :
    let first := empty.pushAll a
    let second := empty.pushAll b
    let both := first.pushAll b
    (∀ is : Interceptors,
        (runIn 0 (watchedFrom 0 is.chain) r).run [] = (is.apply r, is.visits r) ∧
          Handles is.chain r (is.apply r) (is.visits r) ∧
          ∀ k s, (k, s) ∈ is.visits r → Accept (is.chain.take k) r s) ∧
      both.size = first.size + second.size ∧
      (∀ q e log, first.apply r = (q, .error e, log) →
        both.apply r = (q, .error e, log) ∧ both.visits r = first.visits r) ∧
      ∀ q log, first.apply r = (q, .ok (), log) →
        both.visits r = first.visits r ++ (second.visits q).map (fun v => (first.size + v.1, v.2)) ∧
        (∀ s more, second.apply q = (s, .ok (), more) → both.apply r = (s, .ok (), more)) ∧
        ∀ s e i, second.apply q = (s, .error e, [rejected s i e]) →
          both.apply r = (s, .error e, [rejected s (first.size + i) e]) := by
  intro first second both
  have hboth : both.chain = first.chain ++ b := chain_pushAll first b
  have hsecond : second.chain = b := chain_pushAll empty b
  refine ⟨fun is => ⟨runIn_watched 0 is.chain r [], handles_apply is r, fun k s h => ?_⟩, ?_,
    fun q e log h => ⟨?_, ?_⟩, fun q log h => ?_⟩
  · obtain ⟨j, rfl, hj⟩ := accept_of_mem_visitsFrom h
    rwa [Nat.zero_add]
  · rw [size, hboth, List.length_append, ← hsecond]
    rfl
  · rw [apply, hboth]
    exact run_append_of_error h b
  · rw [visits, hboth]
    exact visitsFrom_append_of_error h b
  · obtain ⟨ha, -⟩ := apply_eq_ok_iff.1 h
    have happly : both.apply r = run first.size b q := by
      rw [apply, hboth, run_append ha, Nat.zero_add]
      rfl
    rw [happly, ← hsecond]
    refine ⟨?_, fun s more hs => ?_, fun s e i hs => ?_⟩
    · rw [visits, hboth, visitsFrom_append ha, Nat.zero_add, ← hsecond]
      exact congrArg _ (visitsFrom_add first.size 0 second.chain q)
    · obtain ⟨hb, rfl⟩ := apply_eq_ok_iff.1 hs
      exact run_of_accept hb first.size
    · exact run_add_of_error hs first.size

/-- An interceptor that gives every request another URL. -/
def movedTo (url : String) : Interceptor := fun q => ({ q with url }, .ok ())

/-- An interceptor that is registered third is recorded so, and leaves what the second has made of
what the first has made of the request. -/
theorem apply_pushAll_locked :
    let first := empty.pushAll [movedTo "v2/users"]
    let behind := [movedTo "people", HttpTransport.locked]
    let e := ApiError.client (.interceptor "locked")
    first.apply (HttpTransport.getRequest "users") =
        (HttpTransport.getRequest "v2/users", .ok (), []) ∧
      (empty.pushAll behind).apply (HttpTransport.getRequest "v2/users") =
        (HttpTransport.getRequest "people", .error e,
          [rejected (HttpTransport.getRequest "people") 1 e]) ∧
      (first.pushAll behind).apply (HttpTransport.getRequest "users") =
        (HttpTransport.getRequest "people", .error e,
          [rejected (HttpTransport.getRequest "people") 2 e]) := by
  intro first behind e
  refine ⟨rfl, rfl, ?_⟩
  obtain ⟨-, -, -, haccepted⟩ :=
    apply_pushAll [movedTo "v2/users"] behind (HttpTransport.getRequest "users")
  exact (haccepted _ _ rfl).2.2 _ _ 1 rfl

end RestDispatch.Interceptors
