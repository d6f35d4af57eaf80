import Mathlib.Data.List.Induction
import Mathlib.Data.List.Nodup
import RestDispatch.Declaration.Config

/-!
# What a list of entries sets

`Config.Adds` says what one entry does to the keys that are set, and when it may; `Gathers es c`
that the keys `c` are those that the entries `es` set, each at most once and every value a valid
one. Adding an entry carries the one from a list of entries to the longer list and back, so that
`exists_ofEntries_iff` decides which lists are admitted, and `Gathers.of_ofEntries` what they set.
-/

namespace RestDispatch.Declaration

/-! ### The keys of an entry -/

/-- The keys that a route has once at most. -/
inductive Key
  | name
  | method
  | url
  | pathParams
  | queryParams
  | data
  | response
  deriving DecidableEq

namespace Entry

/-- The key of an entry, if it is one that a route has once at most. -/
def key? : Entry → Option Key
  | .name _ => some .name
  | .method _ => some .method
  | .url _ => some .url
  | .pathParams _ => some .pathParams
  | .queryParams _ => some .queryParams
  | .data _ => some .data
  | .response _ _ => some .response
  | _ => none

/-- The name of the default query parameter that an entry gives. -/
def defaultKey? : Entry → Option String
  | .defaultQuery key _ => key.single?
  | _ => none

/-- The name that an entry gives. -/
def name? : Entry → Option StringLiteral
  | .name v => some v
  | _ => none

/-- The method that an entry gives. -/
def method? : Entry → Option Method
  | .method w => methodOf? w
  | _ => none

/-- The URL that an entry gives. -/
def url? : Entry → Option Expr
  | .url e => some e
  | _ => none

/-- The type of the path parameters that an entry gives. -/
def pathParams? : Entry → Option Ty
  | .pathParams t => some t
  | _ => none

/-- The type of the query parameters that an entry gives. -/
def queryParams? : Entry → Option Ty
  | .queryParams t => some t
  | _ => none

/-- The type of the body that an entry gives. -/
def data? : Entry → Option Ty
  | .data t => some t
  | _ => none

/-- The response that an entry gives. -/
def response? : Entry → Option ResponseDeclaration
  | .response w t => (ResponseDeclaration.ofEntry w t).toOption
  | _ => none

/-- The default query parameter that an entry gives. -/
def default? : Entry → Option (String × String)
  | .defaultQuery key (.ok l) => do return (← key.single?, ← defaultText? l)
  | _ => none

theorem default?_eq_none {e : Entry} {k : Key} (h : e.key? = some k) : e.default? = none := by
  cases e <;> first | rfl | cases h

theorem defaultKey?_eq_none {e : Entry} {k : Key} (h : e.key? = some k) :
    e.defaultKey? = none := by
  cases e <;> first | rfl | cases h

/-- Whether the value of an entry is one that its key admits. -/
def Valid : Entry → Prop
  | .name v => RouteName.fault? v.value = none
  | .method w => ∃ m, methodOf? w = some m
  | .response w t => ∃ r, ResponseDeclaration.ofEntry w t = .ok r
  | .defaultQuery key value =>
    ∃ k l s, key.single? = some k ∧ value = .ok l ∧ defaultText? l = some s
  | .malformed _ => False
  | _ => True

end Entry

namespace Config

/-! ### One entry -/

/-- What an entry may do to the keys that are set. -/
inductive Adds (c : Config) : Entry → Config → Prop
  | name {v : StringLiteral} (hv : RouteName.fault? v.value = none) (h : c.name = none) :
      Adds c (.name v) { c with name := some v }
  | method {w : String} {m : Method} (hm : methodOf? w = some m) (h : c.method = none) :
      Adds c (.method w) { c with method := some m }
  | url {e : Expr} (h : c.url = none) : Adds c (.url e) { c with url := some e }
  | pathParams {t : Ty} (h : c.pathParams = none) :
      Adds c (.pathParams t) { c with pathParams := some t }
  | queryParams {t : Ty} (h : c.queryParams = none) :
      Adds c (.queryParams t) { c with queryParams := some t }
  | data {t : Ty} (h : c.data = none) : Adds c (.data t) { c with data := some t }
  | response {w : String} {t : Option Ty} {r : ResponseDeclaration}
      (hr : ResponseDeclaration.ofEntry w t = .ok r) (h : c.response = none) :
      Adds c (.response w t) { c with response := some r }
  | defaultQuery {key : KeyPath} {l : Literal} {k s : String} (hk : key.single? = some k)
      (hs : defaultText? l = some s) (h : k ∉ c.defaults.map Prod.fst) :
      Adds c (.defaultQuery key (.ok l)) { c with defaults := c.defaults ++ [(k, s)] }

theorem map_setOnce_eq_ok {α : Type} {slot : Option α} {v : α} {f : Option α → Config}
    {c' : Config} : (setOnce slot v).map f = .ok c' ↔ slot = none ∧ c' = f (some v) := by
  cases slot with
  | none =>
    constructor
    · intro h
      cases h
      exact ⟨rfl, rfl⟩
    · rintro ⟨-, rfl⟩
      rfl
  | some w =>
    refine ⟨fun h => (by cases h), ?_⟩
    rintro ⟨h, -⟩
    cases h

theorem any_key_iff {ds : List (String × String)} {k : String} :
    (ds.any fun e => e.1 == k) = true ↔ k ∈ ds.map Prod.fst := by
  rw [List.any_eq_true, List.mem_map]
  simp only [beq_iff_eq]

theorem Adds.add {c c' : Config} {e : Entry} (h : Adds c e c') : c.add e = .ok c' := by
  cases h with
  | name hv h =>
    simp only [Config.add, checkName_eq_ok_iff.2 hv, map_setOnce_eq_ok, h, and_self]
  | method hm h => simp only [Config.add, hm, map_setOnce_eq_ok, h, and_self]
  | response hr h => simp only [Config.add, hr, map_setOnce_eq_ok, h, and_self]
  | url h | pathParams h | queryParams h | data h =>
    simp only [Config.add, map_setOnce_eq_ok, h, and_self]
  | defaultQuery hk hs h =>
    rw [Config.add, addDefault, hk]
    dsimp only
    rw [if_neg (mt any_key_iff.1 h), hs]

theorem adds_of_addDefault {c c' : Config} {key : KeyPath}
    {value : Except DeclarationFault Literal} (h : c.addDefault key value = .ok c') :
    Adds c (.defaultQuery key value) c' := by
  unfold addDefault at h
  split at h
  · cases h
  · next k hk =>
    split at h
    · cases h
    · next hn =>
      split at h
      · cases h
      · split at h
        · cases h
        · next s hs =>
          cases h
          exact .defaultQuery hk hs (mt any_key_iff.2 hn)

theorem adds_of_add {c c' : Config} {e : Entry} (h : c.add e = .ok c') : Adds c e c' := by
  cases e with
  | name v =>
    rw [Config.add] at h
    split at h
    · cases h
    · next hv =>
      obtain ⟨hn, rfl⟩ := map_setOnce_eq_ok.1 h
      exact .name (checkName_eq_ok_iff.1 hv) hn
  | method w =>
    rw [Config.add] at h
    split at h
    · cases h
    · next hm =>
      obtain ⟨hn, rfl⟩ := map_setOnce_eq_ok.1 h
      exact .method hm hn
  | response w t =>
    rw [Config.add] at h
    split at h
    · cases h
    · next hr =>
      obtain ⟨hn, rfl⟩ := map_setOnce_eq_ok.1 h
      exact .response hr hn
  | url | pathParams | queryParams | data =>
    obtain ⟨hn, rfl⟩ := map_setOnce_eq_ok.1 h
    constructor
    exact hn
  | defaultQuery key value => exact adds_of_addDefault h
  | malformed f => cases h

/-- Adding an entry does what it may do. -/
theorem add_eq_ok_iff {c c' : Config} {e : Entry} : c.add e = .ok c' ↔ Adds c e c' :=
  ⟨adds_of_add, Adds.add⟩

/-! ### Slots -/

/-- A key, what an entry gives for it, and the slot that this sets. -/
structure IsSlot {α : Type} (k : Key) (f : Entry → Option α) (slot : Config → Option α) : Prop where
  adds : ∀ {c c' : Config} {e : Entry}, Adds c e c' →
    (slot c).toList ++ (f e).toList = (slot c').toList
  key : ∀ {e : Entry}, e.Valid → ((f e).isSome = true ↔ e.key? = some k)
  unset : slot empty = none

theorem nameSlot : IsSlot .name Entry.name? Config.name where
  adds h := by cases h <;> simp_all [Entry.name?]
  key {e} _ := by cases e <;> simp [Entry.name?, Entry.key?]
  unset := rfl

theorem methodSlot : IsSlot .method Entry.method? Config.method where
  adds h := by cases h <;> simp_all [Entry.method?]
  key {e} hv := by
    cases e with
    | method w =>
      obtain ⟨m, hm⟩ := hv
      simp [Entry.method?, Entry.key?, hm]
    | _ => simp [Entry.method?, Entry.key?]
  unset := rfl

theorem urlSlot : IsSlot .url Entry.url? Config.url where
  adds h := by cases h <;> simp_all [Entry.url?]
  key {e} _ := by cases e <;> simp [Entry.url?, Entry.key?]
  unset := rfl

theorem pathParamsSlot : IsSlot .pathParams Entry.pathParams? Config.pathParams where
  adds h := by cases h <;> simp_all [Entry.pathParams?]
  key {e} _ := by cases e <;> simp [Entry.pathParams?, Entry.key?]
  unset := rfl

theorem queryParamsSlot : IsSlot .queryParams Entry.queryParams? Config.queryParams where
  adds h := by cases h <;> simp_all [Entry.queryParams?]
  key {e} _ := by cases e <;> simp [Entry.queryParams?, Entry.key?]
  unset := rfl

theorem dataSlot : IsSlot .data Entry.data? Config.data where
  adds h := by cases h <;> simp_all [Entry.data?]
  key {e} _ := by cases e <;> simp [Entry.data?, Entry.key?]
  unset := rfl

theorem responseSlot : IsSlot .response Entry.response? Config.response where
  adds h := by cases h <;> simp_all [Entry.response?, Except.toOption]
  key {e} hv := by
    cases e with
    | response w t =>
      obtain ⟨r, hr⟩ := hv
      simp [Entry.response?, Entry.key?, hr, Except.toOption]
    | _ => simp [Entry.response?, Entry.key?]
  unset := rfl

namespace Adds

variable {c c' : Config} {e : Entry}

theorem defaults_eq (h : Adds c e c') : c.defaults ++ e.default?.toList = c'.defaults := by
  cases h <;> simp_all [Entry.default?]

theorem nodup (h : Adds c e c') (hc : (c.defaults.map Prod.fst).Nodup) :
    (c'.defaults.map Prod.fst).Nodup := by
  cases h with
  | @defaultQuery _ _ k s _ _ h =>
    rw [List.map_append, List.nodup_append]
    refine ⟨hc, List.nodup_singleton k, fun j hj i hi he => ?_⟩
    cases List.mem_singleton.1 hi
    subst he
    exact h hj
  | _ => exact hc

theorem valid (h : Adds c e c') : e.Valid := by
  cases h with
  | name hv => exact hv
  | method hm => exact ⟨_, hm⟩
  | response hr => exact ⟨_, hr⟩
  | defaultQuery hk hs => exact ⟨_, _, _, hk, rfl, hs⟩
  | _ => trivial

end Adds

/-! ### Lists of entries -/

/-- The keys `c` are those that the entries `es` set. -/
structure Gathers (es : List Entry) (c : Config) : Prop where
  slot : ∀ {α : Type} {k : Key} {f : Entry → Option α} {s : Config → Option α}, IsSlot k f s →
    es.filterMap f = (s c).toList
  defaults : es.filterMap Entry.default? = c.defaults
  nodup : (c.defaults.map Prod.fst).Nodup
  valid : ∀ e ∈ es, e.Valid

/-- Each key is given at most once, default query parameters have names of their own, and every
value is valid. -/
structure Fits (es : List Entry) : Prop where
  once : (es.filterMap Entry.key?).Nodup
  defaults : (es.filterMap Entry.defaultKey?).Nodup
  valid : ∀ e ∈ es, e.Valid

theorem filterMap_snoc {α : Type} (f : Entry → Option α) (es : List Entry) (e : Entry) :
    (es ++ [e]).filterMap f = es.filterMap f ++ (f e).toList := by
  rw [List.filterMap_append]
  cases h : f e with
  | none => simp [h]
  | some a => simp [h]

theorem map_default_eq {es : List Entry} (hv : ∀ e ∈ es, e.Valid) :
    (es.filterMap Entry.default?).map Prod.fst = es.filterMap Entry.defaultKey? := by
  rw [List.map_filterMap]
  refine List.filterMap_congr fun e he => ?_
  have := hv e he
  cases e with
  | defaultQuery key value =>
    obtain ⟨k, l, s, hk, rfl, hs⟩ := this
    simp [Entry.default?, Entry.defaultKey?, hk, hs]
  | _ => rfl

/-- A slot is given as often as its key. -/
theorem IsSlot.length_eq {α : Type} {k : Key} {f : Entry → Option α} {s : Config → Option α}
    (hs : IsSlot k f s) {es : List Entry} (hv : ∀ e ∈ es, e.Valid) :
    (es.filterMap f).length = (es.filterMap Entry.key?).count k := by
  rw [List.length_filterMap_eq_countP, List.count_filterMap]
  exact List.countP_congr fun e he => by simpa using hs.key (hv e he)

theorem Fits.of_snoc {es : List Entry} {e : Entry} (h : Fits (es ++ [e])) : Fits es := by
  obtain ⟨hk, hd, hv⟩ := h
  rw [filterMap_snoc] at hk hd
  exact ⟨hk.of_append_left, hd.of_append_left, fun d hd => hv d (List.mem_append_left _ hd)⟩

namespace Gathers

section Slots

variable {α : Type} {k : Key} {f : Entry → Option α} {s : Config → Option α} {es : List Entry}
  {c : Config}

/-- A key is set if an entry gives it. -/
theorem exists_slot_iff (h : Gathers es c) (hs : IsSlot k f s) :
    (∃ a, s c = some a) ↔ k ∈ es.filterMap Entry.key? := by
  rw [← List.count_pos_iff, ← hs.length_eq h.valid, h.slot hs]
  cases s c <;> simp

/-- A key that is set is set by an entry. -/
theorem exists_mem (h : Gathers es c) (hs : IsSlot k f s) {a : α} (ha : s c = some a) :
    ∃ e ∈ es, f e = some a := by
  have hm : a ∈ es.filterMap f := by rw [h.slot hs, ha, Option.mem_toList]
  exact List.mem_filterMap.1 hm

/-- A key that is given once more had not been set. -/
theorem slot_eq_none (h : Gathers es c) (hs : IsSlot k f s) {e : Entry} (hf : Fits (es ++ [e]))
    {a : α} (he : f e = some a) : s c = none := by
  have hl : ((es ++ [e]).filterMap f).length ≤ 1 := by
    rw [hs.length_eq hf.valid]
    exact List.nodup_iff_count_le_one.1 hf.once k
  rw [filterMap_snoc, h.slot hs, he] at hl
  cases hc : s c with
  | none => rfl
  | some b =>
    rw [hc] at hl
    simp at hl

theorem count_le_one (h : Gathers es c) (hs : IsSlot k f s) :
    (es.filterMap Entry.key?).count k ≤ 1 := by
  rw [← hs.length_eq h.valid, h.slot hs]
  exact Option.length_toList_le

end Slots

variable {es : List Entry} {e : Entry} {c c' : Config}

theorem nil : Gathers [] empty where
  slot hs := by rw [hs.unset, List.filterMap_nil, Option.toList_none]
  defaults := rfl
  nodup := .nil
  valid := by simp

/-- One more entry keeps what is gathered in step. -/
theorem add (h : Gathers es c) (ha : Adds c e c') : Gathers (es ++ [e]) c' where
  slot hs := by rw [filterMap_snoc, h.slot hs, hs.adds ha]
  defaults := by rw [filterMap_snoc, h.defaults, ha.defaults_eq]
  nodup := ha.nodup h.nodup
  valid := by
    intro d hd
    rcases List.mem_append.1 hd with hd | hd
    · exact h.valid d hd
    · cases List.mem_singleton.1 hd
      exact ha.valid

theorem fits (h : Gathers es c) : Fits es where
  once := by
    refine List.nodup_iff_count_le_one.2 fun k => ?_
    cases k with
    | name => exact h.count_le_one nameSlot
    | method => exact h.count_le_one methodSlot
    | url => exact h.count_le_one urlSlot
    | pathParams => exact h.count_le_one pathParamsSlot
    | queryParams => exact h.count_le_one queryParamsSlot
    | data => exact h.count_le_one dataSlot
    | response => exact h.count_le_one responseSlot
  defaults := by
    rw [← map_default_eq h.valid, h.defaults]
    exact h.nodup
  valid := h.valid

theorem exists_adds (h : Gathers es c) (hf : Fits (es ++ [e])) : ∃ c', Adds c e c' := by
  have hv := hf.valid e (List.mem_append_right _ (List.mem_singleton_self e))
  cases e with
  | name v => exact ⟨_, .name hv (h.slot_eq_none nameSlot hf rfl)⟩
  | method w =>
    obtain ⟨m, hm⟩ := hv
    exact ⟨_, .method hm (h.slot_eq_none methodSlot hf hm)⟩
  | url e => exact ⟨_, .url (h.slot_eq_none urlSlot hf rfl)⟩
  | pathParams t => exact ⟨_, .pathParams (h.slot_eq_none pathParamsSlot hf rfl)⟩
  | queryParams t => exact ⟨_, .queryParams (h.slot_eq_none queryParamsSlot hf rfl)⟩
  | data t => exact ⟨_, .data (h.slot_eq_none dataSlot hf rfl)⟩
  | response w t =>
    obtain ⟨r, hr⟩ := hv
    have he : (Entry.response w t).response? = some r := by rw [Entry.response?, hr]; rfl
    exact ⟨_, .response hr (h.slot_eq_none responseSlot hf he)⟩
  | defaultQuery key value =>
    obtain ⟨k, l, s, hk, rfl, hs⟩ := hv
    have hn := hf.defaults
    rw [filterMap_snoc, ← map_default_eq h.valid, h.defaults, List.nodup_append] at hn
    refine ⟨_, .defaultQuery hk hs fun hm => ?_⟩
    exact hn.2.2 k hm k (by rw [Entry.defaultKey?, hk]; exact List.mem_singleton_self k) rfl
  | malformed f => exact hv.elim

end Gathers

theorem ofEntries_snoc (es : List Entry) (e : Entry) :
    ofEntries (es ++ [e]) = (ofEntries es).bind fun c => c.add e := by
  rw [ofEntries, List.foldlM_append]
  simp only [List.foldlM_cons, List.foldlM_nil, bind_pure]
  rfl

/-- The first entry that is refused decides, whatever follows it. -/
theorem ofEntries_of_add {es : List Entry} {c : Config} (hc : ofEntries es = .ok c) {e : Entry}
    {f : DeclarationFault} (he : c.add e = .error f) (rest : List Entry) :
    ofEntries (es ++ e :: rest) = .error f := by
  rw [ofEntries] at hc ⊢
  rw [List.foldlM_append, hc]
  show List.foldlM add c (e :: rest) = _
  rw [List.foldlM_cons, he]
  rfl

/-- What a list of entries sets, when it is admitted. -/
theorem Gathers.of_ofEntries {es : List Entry} {c : Config} (h : ofEntries es = .ok c) :
    Gathers es c := by
  induction es using List.reverseRecOn generalizing c with
  | nil =>
    cases h
    exact .nil
  | append_singleton es e ih =>
    rw [ofEntries_snoc] at h
    cases hes : ofEntries es with
    | error f =>
      rw [hes] at h
      cases h
    | ok c₁ =>
      rw [hes] at h
      exact (ih hes).add (add_eq_ok_iff.1 h)

/-- **A list of entries is admitted exactly if it fits.** -/
theorem exists_ofEntries_iff {es : List Entry} : (∃ c, ofEntries es = .ok c) ↔ Fits es := by
  constructor
  · rintro ⟨c, h⟩
    exact (Gathers.of_ofEntries h).fits
  · intro h
    -- from the last entry on: it is added to what the others have set
    induction es using List.reverseRecOn with
    | nil => exact ⟨empty, rfl⟩
    | append_singleton es e ih =>
      obtain ⟨c, hc⟩ := ih h.of_snoc
      obtain ⟨c', hc'⟩ := (Gathers.of_ofEntries hc).exists_adds h
      refine ⟨c', ?_⟩
      rw [ofEntries_snoc, hc]
      exact add_eq_ok_iff.2 hc'

/-! ### Lists in another order -/

theorem eq_of_perm_toList {α : Type} {a b : Option α} (h : a.toList.Perm b.toList) : a = b := by
  cases a with
  | none => exact (Option.toList_eq_nil_iff.1 (List.nil_perm.1 h)).symm
  | some a =>
    have hb := List.singleton_perm.1 h
    exact (Option.toList_eq_singleton_iff.1 hb.symm).symm

/-- What a list of entries sets does not depend on their order, but for that of the default query
parameters. -/
theorem Gathers.perm {es fs : List Entry} {c d : Config} (hc : Gathers es c) (hd : Gathers fs d)
    (hp : es.Perm fs) : d = { c with defaults := d.defaults } ∧ c.defaults.Perm d.defaults := by
  have hslot : ∀ {α : Type} {k : Key} {f : Entry → Option α} {s : Config → Option α},
      IsSlot k f s → s c = s d := by
    intro α k f s hs
    refine eq_of_perm_toList ?_
    rw [← hc.slot hs, ← hd.slot hs]
    exact hp.filterMap f
  constructor
  · obtain ⟨name, method, url, pathParams, queryParams, data, response, defaults⟩ := d
    rw [hslot nameSlot, hslot methodSlot, hslot urlSlot, hslot pathParamsSlot,
      hslot queryParamsSlot, hslot dataSlot, hslot responseSlot]
  · rw [← hc.defaults, ← hd.defaults]
    exact hp.filterMap _

end Config
end RestDispatch.Declaration
