import RestDispatch.Dispatcher
import RestDispatch.Proofs.Call.Prepare

/-!
# The assembly of a call

A call is assembled in steps: its slots are filled, none of them twice, and its options are replaced
or changed. `assemble` takes the steps in their order, and `Assembled` says what they make of a
call: each slot holds what some step wrote, and the options have gone through the other steps from
left to right. `assembled_in_any_order` reads from it that a call is resolved by what its slots hold
and by nothing else, in whichever order they were filled.
-/

namespace RestDispatch

variable {τ : Type} [ParamTypes τ] {ω ρ : Type}

namespace Slot

variable {k : PresenceKind} {α : Type}

/-- What has been written into a slot. -/
def inputs : Slot k α → List (k.Input α)
  | .untouched => []
  | .written input => [input]

theorem inputs_injective {s t : Slot k α} (h : s.inputs = t.inputs) : s = t := by
  cases s <;> cases t <;> simp_all [inputs]

/-- Nothing is written into a slot twice. -/
theorem inputs_ne_cons_cons (s : Slot k α) {a b : k.Input α} {l : List (k.Input α)} :
    s.inputs ≠ a :: b :: l := by
  cases s <;> simp [inputs]

/-- What is written into a slot is all that is. -/
theorem eq_written_of_inputs {s : Slot k α} {a : k.Input α} {l l' : List (k.Input α)}
    (h : l ++ a :: l' = s.inputs) : s = .written a ∧ l ++ l' = [] := by
  cases s with
  | untouched => simp [inputs] at h
  | written input =>
    obtain ⟨rfl, ha⟩ | ⟨_, _, hl⟩ := List.append_eq_cons_iff.1 h
    · cases ha
      exact ⟨rfl, rfl⟩
    · simp at hl

/-- What has been written into a slot has one order only. -/
theorem inputs_of_perm {s : Slot k α} {l l' : List (k.Input α)} (hperm : l'.Perm l)
    (h : l = s.inputs) : l' = s.inputs := by
  subst h
  cases s with
  | untouched => exact hperm.eq_nil
  | written input => exact hperm.eq_singleton

/-- Whether a slot may be left as it is depends on its value alone. -/
theorem isReady_eq (s : Slot k α) : s.isReady = (k != .required || s.value?.isSome) := by
  cases s with
  | untouched => exact (Bool.or_false _).symm
  | written input => cases k <;> rfl

end Slot

namespace Call

variable {r : Route τ}

/-! ### Steps -/

/-- A step in the assembly of a call. -/
inductive Step (r : Route τ) (ω : Type)
  | path (input : r.path.kind.Input r.path.Value)
  | query (input : r.query.Input Serial)
  | data (input : r.data.Input Serial)
  | options (o : ω)
  | configure (f : ω → ω)

namespace Step

/-- What a step writes into the slot for the path parameters. -/
def path? : Step r ω → Option (r.path.kind.Input r.path.Value)
  | .path input => some input
  | _ => none

/-- What a step writes into the slot for the query parameters. -/
def query? : Step r ω → Option (r.query.Input Serial)
  | .query input => some input
  | _ => none

/-- What a step writes into the slot for the body. -/
def data? : Step r ω → Option (r.data.Input Serial)
  | .data input => some input
  | _ => none

/-- What a step does to the options. -/
def change? : Step r ω → Option (ω → ω)
  | .options o => some fun _ => o
  | .configure f => some f
  | _ => none

/-- The call after a step. No step fills a slot that has been filled. -/
def take (c : Call r ω) : Step r ω → Option (Call r ω)
  | .path input =>
    match c.path with
    | .untouched => some (c.withPath input)
    | .written _ => none
  | .query input =>
    match c.query with
    | .untouched => some (c.withQuery input)
    | .written _ => none
  | .data input =>
    match c.data with
    | .untouched => some (c.withData input)
    | .written _ => none
  | .options o => some (c.withOptions o)
  | .configure f => some (c.configure f)

/-- Whether a step writes no value into a slot. -/
def WritesNone : Step r ω → Prop
  | .path input => r.path.kind.value? input = none
  | .query input => r.query.value? input = none
  | .data input => r.data.value? input = none
  | .options _ => False
  | .configure _ => False

end Step

/-- The call after some steps. -/
def assemble (c : Call r ω) (steps : List (Step r ω)) : Option (Call r ω) :=
  steps.foldlM Step.take c

/-- The options after some steps. -/
def optionsAfter (initial : ω) (steps : List (Step r ω)) : ω :=
  (steps.filterMap Step.change?).foldl (fun o f => f o) initial

/-- What steps make of a call. -/
structure Assembled (c : Call r ω) (steps : List (Step r ω)) (c' : Call r ω) : Prop where
  path : c.path.inputs ++ steps.filterMap Step.path? = c'.path.inputs
  query : c.query.inputs ++ steps.filterMap Step.query? = c'.query.inputs
  data : c.data.inputs ++ steps.filterMap Step.data? = c'.data.inputs
  options : optionsAfter c.options steps = c'.options

theorem assembled_iff {c c' : Call r ω} {steps : List (Step r ω)} :
    Assembled c steps c' ↔
      c.path.inputs ++ steps.filterMap Step.path? = c'.path.inputs ∧
      c.query.inputs ++ steps.filterMap Step.query? = c'.query.inputs ∧
      c.data.inputs ++ steps.filterMap Step.data? = c'.data.inputs ∧
      optionsAfter c.options steps = c'.options :=
  ⟨fun ⟨hp, hq, hd, ho⟩ => ⟨hp, hq, hd, ho⟩, fun ⟨hp, hq, hd, ho⟩ => ⟨hp, hq, hd, ho⟩⟩

theorem assembled_nil_iff {c c' : Call r ω} : Assembled c [] c' ↔ c = c' := by
  constructor
  · rintro ⟨hp, hq, hd, ho⟩
    rw [List.filterMap_nil, List.append_nil] at hp hq hd
    cases c
    cases c'
    cases Slot.inputs_injective hp
    cases Slot.inputs_injective hq
    cases Slot.inputs_injective hd
    cases ho
    rfl
  · rintro rfl
    exact ⟨List.append_nil _, List.append_nil _, List.append_nil _, rfl⟩

theorem optionsAfter_append (initial : ω) (before after : List (Step r ω)) :
    optionsAfter initial (before ++ after) = optionsAfter (optionsAfter initial before) after := by
  rw [optionsAfter, List.filterMap_append, List.foldl_append]
  rfl

/-- What some steps and then others make of a call. -/
theorem assembled_append {c c' : Call r ω} {before after : List (Step r ω)} :
    Assembled c (before ++ after) c' ↔
      c.path.inputs ++ before.filterMap Step.path? ++ after.filterMap Step.path? = c'.path.inputs ∧
      c.query.inputs ++ before.filterMap Step.query? ++ after.filterMap Step.query? =
        c'.query.inputs ∧
      c.data.inputs ++ before.filterMap Step.data? ++ after.filterMap Step.data? = c'.data.inputs ∧
      optionsAfter (optionsAfter c.options before) after = c'.options := by
  simp only [assembled_iff, List.filterMap_append, List.append_assoc, optionsAfter_append]

/-- Later steps go on from the call that earlier ones lead to. -/
theorem Assembled.append_iff {c b c' : Call r ω} {before after : List (Step r ω)}
    (h : Assembled c before b) : Assembled c (before ++ after) c' ↔ Assembled b after c' := by
  rw [assembled_append, h.path, h.query, h.data, h.options, assembled_iff]

/-- A step writes into its slot or changes the options, and leaves the rest of a call as it is. -/
theorem assembled_of_take {c b : Call r ω} {step : Step r ω} (h : step.take c = some b) :
    Assembled c [step] b := by
  obtain ⟨p, q, d, o⟩ := c
  cases step with
  | path input =>
    cases p with
    | untouched =>
      cases h
      exact ⟨rfl, List.append_nil _, List.append_nil _, rfl⟩
    | written a => cases h
  | query input =>
    cases q with
    | untouched =>
      cases h
      exact ⟨List.append_nil _, rfl, List.append_nil _, rfl⟩
    | written a => cases h
  | data input =>
    cases d with
    | untouched =>
      cases h
      exact ⟨List.append_nil _, List.append_nil _, rfl, rfl⟩
    | written a => cases h
  | options o' =>
    cases h
    exact ⟨List.append_nil _, List.append_nil _, List.append_nil _, rfl⟩
  | configure f =>
    cases h
    exact ⟨List.append_nil _, List.append_nil _, List.append_nil _, rfl⟩

/-- A step that is not taken would fill a slot that has been filled. -/
theorem not_assembled_of_take {c c' : Call r ω} {step : Step r ω} (h : step.take c = none)
    (steps : List (Step r ω)) : ¬ Assembled c (step :: steps) c' := by
  obtain ⟨p, q, d, o⟩ := c
  rintro ⟨hp, hq, hd, -⟩
  cases step with
  | path input =>
    cases p with
    | untouched => cases h
    | written a => exact Slot.inputs_ne_cons_cons _ hp.symm
  | query input =>
    cases q with
    | untouched => cases h
    | written a => exact Slot.inputs_ne_cons_cons _ hq.symm
  | data input =>
    cases d with
    | untouched => cases h
    | written a => exact Slot.inputs_ne_cons_cons _ hd.symm
  | options o' => cases h
  | configure f => cases h

/-- The calls that some steps lead to. -/
theorem assemble_eq_some_iff {c c' : Call r ω} {steps : List (Step r ω)} :
    c.assemble steps = some c' ↔ Assembled c steps c' := by
  induction steps generalizing c with
  | nil => exact Option.some_inj.trans assembled_nil_iff.symm
  | cons step steps ih =>
    rw [assemble, List.foldlM_cons]
    cases h : step.take c with
    -- a slot that is filled stays so, and no later step makes up for the one that is not taken
    | none => exact iff_of_false nofun (not_assembled_of_take h steps)
    | some b =>
      have hb : Assembled c ([step] ++ steps) c' ↔ Assembled b steps c' :=
        (assembled_of_take h).append_iff
      exact ih.trans hb.symm

/-! ### What a call is resolved by -/

/-- Calls whose slots hold the same values. -/
structure SameValues (c c' : Call r ω) : Prop where
  path : c.path.value? = c'.path.value?
  query : c.query.value? = c'.query.value?
  data : c.data.value? = c'.data.value?

namespace SameValues

variable {c c' : Call r ω}

theorem request_eq (h : SameValues c c') (entry : RouteEntry τ) :
    c.request entry = c'.request entry := by
  simp only [request, callerQuery, body, h.path, h.query, h.data]

/-- Calls with the same values are resolved to the same request, or fail with the same error, and
leave the same log. -/
theorem dispatcher_request_eq (h : SameValues c c') (d : Dispatcher τ ω ρ) :
    d.request c = d.request c' := by
  simp only [Dispatcher.request, prepare, h.request_eq]
  cases d.schema.get? r.name with
  | none => rfl
  | some entry => cases hq : c'.request entry <;> simp [hq, Except.map]

/-- With the same options as well, the same becomes of them when they are sent. -/
theorem sendRaw_eq (h : SameValues c c') (ho : c.options = c'.options) (d : Dispatcher τ ω ρ) :
    d.sendRaw c = d.sendRaw c' := by
  simp only [Dispatcher.sendRaw, prepare, h.request_eq, ho]

theorem isReady_eq (h : SameValues c c') : c.isReady = c'.isReady := by
  simp only [isReady, Slot.isReady_eq, h.path, h.query, h.data]

end SameValues

/-- The transport is given the request that a call is resolved to, with the options of the call. -/
theorem delegated_sendRaw (c : Call r ω) (d : Dispatcher τ ω ρ) :
    (d.sendRaw c).delegated = (d.request c).1.toOption.map fun q => (q, c.options) := by
  unfold Dispatcher.sendRaw Dispatcher.request prepare
  cases d.schema.get? r.name with
  | none => rfl
  | some entry =>
    cases h : c.request entry with
    | error e => simp [h, Except.map, Except.toOption]
    | ok q => simp [h, Except.map, Except.toOption]

/-- The steps that write into a slot do so in whatever order. -/
theorem Assembled.perm {c c' : Call r ω} {steps steps' : List (Step r ω)}
    (h : Assembled c steps c') (hperm : steps.Perm steps')
    (hchange : steps.filterMap Step.change? = steps'.filterMap Step.change?) :
    Assembled c steps' c' where
  path := Slot.inputs_of_perm ((hperm.symm.filterMap _).append_left _) h.path
  query := Slot.inputs_of_perm ((hperm.symm.filterMap _).append_left _) h.query
  data := Slot.inputs_of_perm ((hperm.symm.filterMap _).append_left _) h.data
  options := by rw [← h.options, optionsAfter, optionsAfter, hchange]

/-- A step that writes no value may as well be left out. -/
theorem Assembled.leave_out {c c' : Call r ω} {step : Step r ω} {before after : List (Step r ω)}
    (hnone : step.WritesNone) (h : Assembled c (before ++ step :: after) c') :
    ∃ b, Assembled c (before ++ after) b ∧ SameValues b c' ∧ b.options = c'.options := by
  obtain ⟨hp, hq, hd, ho⟩ := assembled_append.1 h
  -- the slot that the step writes into is left untouched, and that is as good as no value
  cases step with
  | path input =>
    obtain ⟨hs, hempty⟩ := Slot.eq_written_of_inputs hp
    have hvalue : none = c'.path.value? := by rw [hs]; exact hnone.symm
    exact ⟨{ c' with path := .untouched }, assembled_append.2 ⟨hempty, hq, hd, ho⟩,
      ⟨hvalue, rfl, rfl⟩, rfl⟩
  | query input =>
    obtain ⟨hs, hempty⟩ := Slot.eq_written_of_inputs hq
    have hvalue : none = c'.query.value? := by rw [hs]; exact hnone.symm
    exact ⟨{ c' with query := .untouched }, assembled_append.2 ⟨hp, hempty, hd, ho⟩,
      ⟨rfl, hvalue, rfl⟩, rfl⟩
  | data input =>
    obtain ⟨hs, hempty⟩ := Slot.eq_written_of_inputs hd
    have hvalue : none = c'.data.value? := by rw [hs]; exact hnone.symm
    exact ⟨{ c' with data := .untouched }, assembled_append.2 ⟨hp, hq, hempty, ho⟩,
      ⟨rfl, rfl, hvalue⟩, rfl⟩
  | options o => exact hnone.elim
  | configure f => exact hnone.elim

variable (d : Dispatcher τ ω ρ)

/-- **The slots and the options are all there is to a call.** The steps that lead from a new call
to another are those that write what stands in its slots, each once, and whose changes of the
options make its options of the initial ones, from left to right; the steps that write into slots
may come in any order between the others. Two calls with the same values in their slots are resolved
to the same request or fail with the same error, whatever has been done to their options, and the
transport is given the request with the options of the call. Nothing is different for a step that
writes no value, nor for a call that is started from a value whose type stands for the route. -/
theorem assembled_in_any_order (r : Route τ) :
    (∀ steps c, (d.call r).assemble steps = some c ↔
      steps.filterMap Step.path? = c.path.inputs ∧ steps.filterMap Step.query? = c.query.inputs ∧
        steps.filterMap Step.data? = c.data.inputs ∧
        optionsAfter d.transport.initial steps = c.options) ∧
      (∀ steps steps', steps.Perm steps' →
        steps.filterMap Step.change? = steps'.filterMap Step.change? →
        (d.call r).assemble steps = (d.call r).assemble steps') ∧
      (∀ steps steps' c c', (d.call r).assemble steps = some c →
        (d.call r).assemble steps' = some c' → SameValues c c' → d.request c = d.request c') ∧
      (∀ steps c, (d.call r).assemble steps = some c → (d.sendRaw c).delegated =
        (d.request c).1.toOption.map fun q => (q, optionsAfter d.transport.initial steps)) ∧
      (∀ before step after c, step.WritesNone →
        (d.call r).assemble (before ++ step :: after) = some c →
        ∃ b, (d.call r).assemble (before ++ after) = some b ∧ b.isReady = c.isReady ∧
          d.request b = d.request c ∧ d.sendRaw b = d.sendRaw c) ∧
      ∀ (α : Type) [RouteType α τ] (a : α), d.callWith a = d.call (routeOf α) := by
  refine ⟨fun steps c => ?_, fun steps steps' hperm hchange => ?_,
    fun steps steps' c c' _ _ hv => ?_, fun steps c hc => ?_,
    fun before step after c hnone hc => ?_, ?_⟩
  · exact assemble_eq_some_iff.trans assembled_iff
  · ext c
    rw [assemble_eq_some_iff, assemble_eq_some_iff]
    exact ⟨fun h => h.perm hperm hchange, fun h => h.perm hperm.symm hchange.symm⟩
  · exact hv.dispatcher_request_eq d
  · rw [delegated_sendRaw, ← (assemble_eq_some_iff.1 hc).options]
    rfl
  · obtain ⟨b, hb, hv, ho⟩ := (assemble_eq_some_iff.1 hc).leave_out hnone
    exact ⟨b, assemble_eq_some_iff.2 hb, hv.isReady_eq, hv.dispatcher_request_eq d,
      hv.sendRaw_eq ho d⟩
  · exact fun α _ a => rfl

/-- A dispatcher whose only route is one to a user, and whose options are numbers. -/
def userDispatcher : Dispatcher SampleType Nat Unit where
  schema := ⟨(Schema.builderOf [getUser]).routes⟩
  transport := ⟨0, fun _ _ => (.ok (), [])⟩

/-- The path parameters may be written before the options are set or after, and that there is no
body may be said or not. -/
theorem assembled_getUser :
    ∃ b c, (userDispatcher.call getUser).assemble
        [.options (5 : Nat), .path (7 : Nat), .configure (2 * ·)] = some b ∧
      (userDispatcher.call getUser).assemble [.path (7 : Nat), .data none, .options (3 : Nat)] =
        some c ∧
      userDispatcher.request b = userDispatcher.request c ∧
      (userDispatcher.sendRaw b).delegated =
        (userDispatcher.request b).1.toOption.map fun q => (q, 10) :=
  have h := assembled_in_any_order userDispatcher getUser
  have hb : (userDispatcher.call getUser).assemble
      [.options (5 : Nat), .path (7 : Nat), .configure (2 * ·)] = some _ := rfl
  have hc : (userDispatcher.call getUser).assemble
      [.path (7 : Nat), .data none, .options (3 : Nat)] = some _ := rfl
  ⟨_, _, hb, hc, h.2.2.1 _ _ _ _ hb hc ⟨rfl, rfl, rfl⟩, h.2.2.2.1 _ _ hb⟩

end Call
end RestDispatch
