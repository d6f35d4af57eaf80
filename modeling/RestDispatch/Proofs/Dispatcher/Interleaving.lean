import Mathlib.Logic.Function.Basic
import RestDispatch.Dispatcher
import RestDispatch.Proofs.Schema.Construction

/-!
# Calls under way together

Many calls may be under way on one dispatcher, each at a stage of its own: it waits, it has been
resolved, its request is with the transport, or it is over. A schedule says whose turn it is to take a
step, and `run` is where the steps of a schedule lead, with a journal of what the transport has been
given. `Accounts` ties the journal to the stages, and every step keeps it. `given_exactly_once` reads
from it that each call ends as it would alone, whatever the others are and do, and that the transport
is given its request once if the call can be resolved and never if not.
-/

namespace RestDispatch

variable {τ : Type} [ParamTypes τ] {ω ρ : Type}

/-! ### One call -/

/-- What a caller wants of the output of a transport: the output, or its body in the format of the
route. -/
inductive Reading
  | raw
  | formatted
  deriving DecidableEq

/-- What a call gives. -/
inductive Answer (ρ : Type)
  | output (a : ρ)
  | value (v : ResponseValue)

/-- A call that is sent, to whichever route. -/
structure Sending (τ : Type) [ParamTypes τ] (ω : Type) where
  route : Route τ
  call : Call route ω
  reading : Reading

/-- What a call is resolved to goes with the options of the call. -/
theorem Call.prepare_fst_eq {r : Route τ} (c : Call r ω) (d : Dispatcher τ ω ρ) :
    (c.prepare d.schema).1 = (d.request c).1.map fun q => (q, c.options) := by
  unfold Dispatcher.request prepare
  cases d.schema.get? r.name with
  | none => rfl
  | some entry =>
    cases h : c.request entry <;> simp [h, Except.map]

namespace Sending

variable [HasBody ρ]

/-- The output of a transport, read as the caller wants it. -/
def read (x : Sending τ ω) (a : ρ) : Except ApiError (Answer ρ) :=
  match x.reading with
  | .raw => .ok (.output a)
  | .formatted => ((x.route.response.parse (HasBody.body a)).mapError .validation).map .value

/-- What becomes of a call when there is no other. -/
def alone (x : Sending τ ω) (d : Dispatcher τ ω ρ) : Delivery ω (Answer ρ) :=
  match x.reading with
  | .raw => (d.sendRaw x.call).bind fun a => .ok (.output a)
  | .formatted => (d.send x.call).bind fun v => .ok (.value v)

/-- What a transport is to be given for a call: the request that the call is resolved to, with the
options of the call, or nothing if it cannot be resolved. -/
def due (x : Sending τ ω) (d : Dispatcher τ ω ρ) : List (Request × ω) :=
  match (d.request x.call).1 with
  | .ok q => [(q, x.call.options)]
  | .error _ => []

/-- What a call is to give: its error if it cannot be resolved, the error of the transport, the output
of the transport, or what the format of the route makes of the body of the output. -/
inductive Yields (x : Sending τ ω) (d : Dispatcher τ ω ρ) : Except ApiError (Answer ρ) → Prop
  | refused {e : ConfigError} (hq : (d.request x.call).1 = .error e) : Yields x d (.error (.config e))
  | failed {q : Request} {e : ApiError} (hq : (d.request x.call).1 = .ok q)
      (ht : (d.transport.execute q x.call.options).1 = .error e) : Yields x d (.error e)
  | output {q : Request} {a : ρ} (hq : (d.request x.call).1 = .ok q)
      (ht : (d.transport.execute q x.call.options).1 = .ok a) (hx : x.reading = .raw) :
      Yields x d (.ok (.output a))
  | value {q : Request} {a : ρ} {v : ResponseValue} (hq : (d.request x.call).1 = .ok q)
      (ht : (d.transport.execute q x.call.options).1 = .ok a) (hx : x.reading = .formatted)
      (hv : x.route.response.parse (HasBody.body a) = .ok v) : Yields x d (.ok (.value v))
  | unread {q : Request} {a : ρ} {e : ValidationError} (hq : (d.request x.call).1 = .ok q)
      (ht : (d.transport.execute q x.call.options).1 = .ok a) (hx : x.reading = .formatted)
      (hv : x.route.response.parse (HasBody.body a) = .error e) :
      Yields x d (.error (.validation e))

/-- Both ways of sending a call read what the transport gives. -/
theorem alone_eq (x : Sending τ ω) (d : Dispatcher τ ω ρ) :
    x.alone d = (d.sendRaw x.call).bind x.read := by
  obtain ⟨r, c, reading⟩ := x
  cases reading with
  | raw => rfl
  | formatted =>
    simp only [alone, Dispatcher.send, Delivery.bind]
    cases (d.sendRaw c).result with
    | error e => rfl
    | ok a =>
      simp only [Except.bind, read]
      cases r.response.parse (HasBody.body a) <;> rfl

theorem alone_of_error {x : Sending τ ω} {d : Dispatcher τ ω ρ} {e : ConfigError} {log : Log}
    (h : x.call.prepare d.schema = (.error e, log)) :
    x.alone d = ⟨none, .error (.config e), log⟩ := by
  rw [alone_eq, Dispatcher.sendRaw, h]
  rfl

theorem alone_of_ok {x : Sending τ ω} {d : Dispatcher τ ω ρ} {q : Request} {options : ω} {log : Log}
    (h : x.call.prepare d.schema = (.ok (q, options), log)) :
    x.alone d = ⟨some (q, options), (d.transport.execute q options).1.bind x.read,
      log ++ (d.transport.execute q options).2⟩ := by
  rw [alone_eq, Dispatcher.sendRaw, h]
  rfl

/-- A call alone gives the transport what it is due and yields what it is to give. -/
theorem alone_spec (x : Sending τ ω) (d : Dispatcher τ ω ρ) :
    (x.alone d).delegated.toList = x.due d ∧ x.Yields d (x.alone d).result := by
  have hp := x.call.prepare_fst_eq d
  obtain ⟨result, log, h⟩ : ∃ result log, x.call.prepare d.schema = (result, log) := ⟨_, _, rfl⟩
  rw [h] at hp
  cases hq : (d.request x.call).1 with
  | error e =>
    rw [hq] at hp
    cases hp
    rw [alone_of_error h, due, hq]
    exact ⟨rfl, .refused hq⟩
  | ok q =>
    rw [hq] at hp
    cases hp
    rw [alone_of_ok h, due, hq]
    refine ⟨rfl, ?_⟩
    cases ht : (d.transport.execute q x.call.options).1 with
    | error e => exact .failed hq ht
    | ok a =>
      show x.Yields d (x.read a)
      unfold read
      split
      · next hx => exact .output hq ht hx
      · next hx =>
        cases hv : x.route.response.parse (HasBody.body a) with
        | error e => exact .unread hq ht hx hv
        | ok v => exact .value hq ht hx hv

end Sending

/-! ### Stages -/

/-- How far a call has come. -/
inductive Stage (ω ρ : Type)
  | waiting
  | resolved (q : Request) (options : ω) (log : Log)
  | sent (q : Request) (options : ω) (log : Log)
  | finished (v : Delivery ω (Answer ρ))

namespace Stage

/-- What the step from a stage gives the transport. -/
def gives : Stage ω ρ → List (Request × ω)
  | .waiting => []
  | .resolved q options _ => [(q, options)]
  | .sent _ _ _ => []
  | .finished _ => []

/-- How many steps lead to a stage, at the most. -/
def rank : Stage ω ρ → Nat
  | .waiting => 0
  | .resolved _ _ _ => 1
  | .sent _ _ _ => 2
  | .finished _ => 3

theorem exists_eq_finished {stage : Stage ω ρ} (h : 3 ≤ stage.rank) : ∃ v, stage = .finished v := by
  cases stage with
  | finished v => exact ⟨v, rfl⟩
  | _ => simp [rank] at h

variable [HasBody ρ] {d : Dispatcher τ ω ρ} {x : Sending τ ω}

/-- The next stage of a call. The transport is given a request in one step and answers in another, so
that other calls may take theirs in between. -/
def next (d : Dispatcher τ ω ρ) (x : Sending τ ω) : Stage ω ρ → Stage ω ρ
  | .waiting =>
    match x.call.prepare d.schema with
    | (.error e, log) => .finished ⟨none, .error (.config e), log⟩
    | (.ok (q, options), log) => .resolved q options log
  | .resolved q options log => .sent q options log
  | .sent q options log =>
    let (result, more) := d.transport.execute q options
    .finished ⟨some (q, options), result.bind x.read, log ++ more⟩
  | .finished v => .finished v

/-- How a stage of a call accounts for what the transport has been given for it. -/
inductive Accounts (d : Dispatcher τ ω ρ) (x : Sending τ ω) :
    Stage ω ρ → List (Request × ω) → Prop
  | waiting : Accounts d x .waiting []
  | resolved {q : Request} {options : ω} {log : Log}
      (h : x.call.prepare d.schema = (.ok (q, options), log)) :
      Accounts d x (.resolved q options log) []
  | sent {q : Request} {options : ω} {log : Log}
      (h : x.call.prepare d.schema = (.ok (q, options), log)) :
      Accounts d x (.sent q options log) [(q, options)]
  | finished : Accounts d x (.finished (x.alone d)) (x.alone d).delegated.toList

/-- The first step resolves a call, and a call that cannot be resolved is over. -/
theorem next_waiting_cases (d : Dispatcher τ ω ρ) (x : Sending τ ω) :
    (next d x .waiting = .finished (x.alone d) ∧ (x.alone d).delegated = none) ∨
      ∃ q options log, next d x .waiting = .resolved q options log ∧
        x.call.prepare d.schema = (.ok (q, options), log) := by
  obtain ⟨result, log, h⟩ : ∃ result log, x.call.prepare d.schema = (result, log) := ⟨_, _, rfl⟩
  cases result with
  | error e =>
    rw [Sending.alone_of_error h]
    exact .inl ⟨by simp only [next, h], rfl⟩
  | ok p => exact .inr ⟨p.1, p.2, log, by simp only [next, h], h⟩

/-- The last step of a call gives what it would give alone. -/
theorem next_sent {q : Request} {options : ω} {log : Log}
    (h : x.call.prepare d.schema = (.ok (q, options), log)) :
    next d x (.sent q options log) = .finished (x.alone d) ∧
      (x.alone d).delegated = some (q, options) := by
  rw [Sending.alone_of_ok h]
  exact ⟨rfl, rfl⟩

/-- A step of a call accounts for what it gives the transport. -/
theorem Accounts.next {stage : Stage ω ρ} {given : List (Request × ω)}
    (h : Accounts d x stage given) : Accounts d x (stage.next d x) (given ++ stage.gives) := by
  have hfinished := Accounts.finished (d := d) (x := x)
  cases h with
  | waiting =>
    rcases next_waiting_cases d x with ⟨hn, hd⟩ | ⟨q, options, log, hn, hp⟩
    · rw [hd] at hfinished
      rw [hn]
      exact hfinished
    · rw [hn]
      exact .resolved hp
  | resolved hp => exact .sent hp
  | sent hp =>
    obtain ⟨hn, hd⟩ := next_sent hp
    rw [hd] at hfinished
    rw [hn]
    exact hfinished
  | finished =>
    rw [gives, List.append_nil]
    exact hfinished

/-- A call that is not over gets on with every step. -/
theorem le_rank_next (d : Dispatcher τ ω ρ) (x : Sending τ ω) (stage : Stage ω ρ) :
    min 3 (stage.rank + 1) ≤ (stage.next d x).rank := by
  cases stage with
  | waiting =>
    rcases next_waiting_cases d x with ⟨hn, -⟩ | ⟨q, options, log, hn, -⟩ <;> simp [hn, rank]
  | resolved q options log => simp [next, rank]
  | sent q options log => simp [next, rank]
  | finished v => simp [next, rank]

end Stage

/-! ### Many calls -/

/-- The calls on a dispatcher: how far each has come, and what the transport has been given, each with
the call that it was given for. -/
structure Traffic (ι ω ρ : Type) where
  stage : ι → Stage ω ρ
  journal : List (ι × Request × ω)

namespace Traffic

variable {ι : Type} [DecidableEq ι]

/-- No call has begun. -/
def start : Traffic ι ω ρ := ⟨fun _ => .waiting, []⟩

/-- What the transport has been given for a call. -/
def given (t : Traffic ι ω ρ) (i : ι) : List (Request × ω) :=
  (t.journal.filter fun e => e.1 = i).map Prod.snd

variable [HasBody ρ] (d : Dispatcher τ ω ρ) (calls : ι → Sending τ ω)

/-- A call takes its next step. -/
def step (t : Traffic ι ω ρ) (i : ι) : Traffic ι ω ρ where
  stage := Function.update t.stage i ((t.stage i).next d (calls i))
  journal := t.journal ++ (t.stage i).gives.map fun e => (i, e)

/-- The steps of a schedule, which names the call that takes each. -/
def run (schedule : List ι) : Traffic ι ω ρ := schedule.foldl (step d calls) start

/-- Whether the journal is what the stages of the calls account for. -/
def Balanced (t : Traffic ι ω ρ) : Prop :=
  ∀ i, (t.stage i).Accounts d (calls i) (t.given i)

theorem stage_step_self (t : Traffic ι ω ρ) (i : ι) :
    (t.step d calls i).stage i = (t.stage i).next d (calls i) := Function.update_self i _ t.stage

/-- The other calls stay where they are. -/
theorem stage_step_of_ne (t : Traffic ι ω ρ) {i j : ι} (h : i ≠ j) :
    (t.step d calls i).stage j = t.stage j := Function.update_of_ne h.symm _ t.stage

theorem given_step (t : Traffic ι ω ρ) (i j : ι) :
    (t.step d calls i).given j = t.given j ++ if i = j then (t.stage i).gives else [] := by
  rw [given, step, List.filter_append, List.map_append, ← given]
  congr 1
  by_cases h : i = j
  · simp [h, List.filter_map, Function.comp_def]
  · simp [h, List.filter_map, Function.comp_def]

theorem balanced_start : Balanced d calls (start : Traffic ι ω ρ) := fun _ => .waiting

variable {d calls}

theorem Balanced.step {t : Traffic ι ω ρ} (h : Balanced d calls t) (i : ι) :
    Balanced d calls (t.step d calls i) := by
  intro j
  rw [given_step]
  by_cases hij : i = j
  · subst hij
    rw [if_pos rfl, stage_step_self]
    exact (h i).next
  · rw [if_neg hij, List.append_nil, stage_step_of_ne d calls t hij]
    exact h j

theorem Balanced.foldl {t : Traffic ι ω ρ} (h : Balanced d calls t) (schedule : List ι) :
    Balanced d calls (schedule.foldl (Traffic.step d calls) t) := by
  induction schedule generalizing t with
  | nil => exact h
  | cons i is ih => exact ih (h.step i)

variable (d calls)

/-- Each turn of a call brings it on, whatever turns the others have in between. -/
theorem le_rank_foldl (t : Traffic ι ω ρ) (schedule : List ι) (i : ι) :
    min 3 ((t.stage i).rank + schedule.count i) ≤
      ((schedule.foldl (step d calls) t).stage i).rank := by
  induction schedule generalizing t with
  | nil => exact Nat.min_le_right _ _
  | cons j js ih =>
    refine Nat.le_trans ?_ (ih (t.step d calls j))
    by_cases h : j = i
    · subst h
      have hn := Stage.le_rank_next d (calls j) (t.stage j)
      rw [List.count_cons_self, stage_step_self]
      omega
    · exact Nat.le_of_eq (by rw [List.count_cons_of_ne h, stage_step_of_ne d calls t h])

/-- **Each call is given to the transport once or never.** After any schedule of the calls on a
dispatcher, the transport has been given for a call no more than is due: the request that the call is
resolved to, with its own options, or nothing if it cannot be resolved. When the call is over it has
been given just that, and the call has what it yields, which is what it would have alone; and a call
that has had three turns is over. -/
theorem given_exactly_once (schedule : List ι) (i : ι) :
    (run d calls schedule).given i <+: (calls i).due d ∧
      (∀ v, (run d calls schedule).stage i = .finished v →
        (run d calls schedule).given i = (calls i).due d ∧ (calls i).Yields d v.result ∧
          v = (calls i).alone d) ∧
      (3 ≤ schedule.count i → ∃ v, (run d calls schedule).stage i = .finished v) := by
  have hbalanced : Balanced d calls (run d calls schedule) := (balanced_start d calls).foldl schedule
  have hi := hbalanced i
  obtain ⟨hdue, hyields⟩ := (calls i).alone_spec d
  refine ⟨?_, fun v hv => ?_, fun hcount => ?_⟩
  · generalize (run d calls schedule).stage i = stage at hi
    generalize (run d calls schedule).given i = given at hi
    cases hi with
    | waiting => exact List.nil_prefix
    | resolved _ => exact List.nil_prefix
    | sent hp =>
      rw [← hdue, (Stage.next_sent hp).2]
      exact List.prefix_refl _
    | finished => exact hdue ▸ List.prefix_refl _
  · rw [hv] at hi
    generalize (run d calls schedule).given i = given at hi
    cases hi
    exact ⟨hdue, hyields, rfl⟩
  · have hrank := le_rank_foldl d calls start schedule i
    exact Stage.exists_eq_finished (Nat.le_trans (by omega) hrank)

/-- A dispatcher that has one route and gives back the URL of a request. -/
def usersDispatcher : Dispatcher Empty Unit Bytes where
  schema := ⟨(Schema.builderOf [Schema.fixedRoute "users" "u"]).routes⟩
  transport := ⟨(), fun q _ => (.ok (Utf8.encode q.url), [])⟩

/-- A call to that route, and one to a route that the dispatcher does not have. -/
def usersAndFeed (known : Bool) : Sending Empty Unit where
  route := Schema.fixedRoute (if known then "users" else "feed") "u"
  call := .start _ ()
  reading := .raw

/-- Of two calls that take turns, the transport sees the one to a route that there is. -/
theorem given_usersAndFeed :
    let t := run usersDispatcher usersAndFeed [true, false, true, false, true, false]
    t.given true = [(⟨"users", .get, "u", .empty, none⟩, ())] ∧ t.given false = [] ∧
      ∃ v, t.stage true = .finished v := by
  have h := given_exactly_once usersDispatcher usersAndFeed [true, false, true, false, true, false]
  obtain ⟨v, hv⟩ := (h true).2.2 (by decide)
  obtain ⟨w, hw⟩ := (h false).2.2 (by decide)
  exact ⟨((h true).2.1 v hv).1, ((h false).2.1 w hw).1, v, hv⟩

end Traffic
end RestDispatch
