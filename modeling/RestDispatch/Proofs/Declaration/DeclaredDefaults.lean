import RestDispatch.Dispatcher
import RestDispatch.Proofs.Call.Prepare
import RestDispatch.Proofs.Declaration.Arrangement
import RestDispatch.Proofs.Declaration.Evaluation
import RestDispatch.Proofs.Declaration.Generation
import RestDispatch.Proofs.Query.Flatten

/-!
# Defaults from their declaration to a call

A default query parameter is declared by a word and a scalar literal. `DeclaresRouteBeside` says of
a declaration that it is one of a route but for its defaults, whatever the tokens of these are.
`declared_defaults_sent` says for which of them it is accepted, and follows their texts through the
implementation to the calls that leave out the query parameters.
-/

namespace RestDispatch

/-! ### Calls without query parameters -/

namespace Dispatcher

variable {τ : Type} [ParamTypes τ] {ω ρ : Type} {r : Route τ}

/-- Whether a call sends a query: the transport is given a request with this query and the options
of the call, unless the call fails because its body has no JSON form. -/
inductive Sends (d : Dispatcher τ ω ρ) (c : Call r ω) (q : Query) : Prop
  | sent {request : Request} (hd : (d.sendRaw c).delegated = some (request, c.options))
      (hq : request.query = q)
  | refused {v : Serial} {f : SerialFault} (hv : c.data.value? = some v) (hf : v.toJson = .error f)
      (hd : (d.sendRaw c).delegated = none)
      (hr : (d.sendRaw c).result = .error (.config (.payload r.name f)))

/-- A call that leaves out the query parameters sends the defaults of its route. -/
theorem sends_defaultQuery {rs : List (Route τ)} {d : Dispatcher τ ω ρ} {c : Call r ω}
    (hs : Schema.ofRoutes rs = .ok d.schema) (hr : r ∈ rs) (hc : c.isReady = true)
    (hq : c.query.value? = none) : d.Sends c r.defaultQuery := by
  obtain ⟨entry, he, hof⟩ := Schema.exists_get?_of_mem hs hr
  obtain ⟨result, log, hp⟩ : ∃ result log, c.prepare d.schema = (result, log) := ⟨_, _, rfl⟩
  have hfst : (c.prepare d.schema).1 = result := by rw [hp]
  cases result with
  | error e =>
    obtain ⟨url, hrule⟩ := r.rule.exists_resolve_of_isReady r.name (Call.isReady_path hc)
    have hu : c.url entry = .ok url := (Call.url_of_isOf hof).trans hrule
    cases (Call.prepare_eq_error_iff he).1 hfst with
    | path he => cases hu.symm.trans he
    | query _ hv _ => cases hq.symm.trans hv
    | data _ _ hv hf =>
      exact .refused hv hf (by simp only [sendRaw, hp]) (by simp only [sendRaw, hp])
  | ok p =>
    obtain ⟨request, options⟩ := p
    obtain ⟨rfl, hresolves⟩ := (Call.prepare_eq_ok_iff he).1 hfst
    obtain ⟨caller, hgives, hget⟩ := hresolves.query
    rw [Call.Gives, hq] at hgives
    obtain ⟨n, -, rfl⟩ := hof
    subst hgives
    exact .sent (by simp only [sendRaw, hp]) (Table.ext_get? hget)

end Dispatcher

namespace Declaration

open Token

/-! ### Declared defaults -/

/-- Tokens that are a scalar literal with a text: a string with its value, a number with its decimal
digits, with a minus sign before it or without one, or a truth value as a literal or as a word. -/
inductive ScalarLiteral : List Token → String → Prop
  | text (source s : String) : ScalarLiteral [.literal source (.text s)] s
  | integer (source ds : String) : ScalarLiteral [.literal source (.integer ds)] ds
  | float (source ds : String) : ScalarLiteral [.literal source (.float ds)] ds
  | negativeInteger (j : Bool) (source ds : String) :
      ScalarLiteral [.mark '-' j, .literal source (.integer ds)] ("-" ++ ds)
  | negativeFloat (j : Bool) (source ds : String) :
      ScalarLiteral [.mark '-' j, .literal source (.float ds)] ("-" ++ ds)
  | boolean (source : String) (b : Bool) :
      ScalarLiteral [.literal source (.boolean b)] (if b then "true" else "false")
  | yes : ScalarLiteral [.word "true"] "true"
  | no : ScalarLiteral [.word "false"] "false"

/-- Tokens that declare the default of a key: a word, a sign of equality and a scalar literal. -/
inductive DeclaresDefault : List Token → String × String → Prop
  | intro (k : String) (j : Bool) {ts : List Token} {s : String} (h : ScalarLiteral ts s) :
      DeclaresDefault (.word k :: .mark '=' j :: ts) (k, s)

/-- An entry that gives a default. -/
def Entry.IsDefault (e : Entry) (d : String × String) : Prop :=
  ∃ l, e = .defaultQuery ⟨false, [d.1]⟩ (.ok l) ∧ defaultText? l = some d.2

/-- Scalar literals are the literals with a text. -/
theorem scalarLiteral_iff {ts : List Token} {s : String} :
    ScalarLiteral ts s ↔ ∃ l, IsLiteral ts l [] ∧ defaultText? l = some s := by
  constructor
  · intro h
    cases h with
    | text | integer | float | boolean => exact ⟨_, .literal _ _ [], rfl⟩
    | negativeInteger | negativeFloat => exact ⟨_, .signed [] rfl, rfl⟩
    | yes | no => exact ⟨_, .truth [] rfl, rfl⟩
  · rintro ⟨l, hl, hs⟩
    cases hl with
    | literal source k => cases k <;> cases hs <;> constructor
    | truth _ hw =>
      unfold truthOf? at hw
      split_ifs at hw with htrue hfalse
      · subst htrue
        cases hw
        cases hs
        exact .yes
      · subst hfalse
        cases hw
        cases hs
        exact .no
    | @signed c j source k k' _ hk =>
      cases k <;> simp only [LiteralKind.negatedBy?, reduceCtorEq] at hk
      all_goals
        obtain ⟨rfl, ⟨⟩⟩ := Option.ite_none_right_eq_some.1 hk
        cases hs
        constructor

theorem declaresDefault_iff {ts : List Token} {d : String × String} :
    DeclaresDefault ts d ↔ ∃ e, DefaultEntry ts [e] [] ∧ e.IsDefault d := by
  constructor
  · rintro ⟨k, j, h⟩
    obtain ⟨l, hl, hs⟩ := scalarLiteral_iff.1 h
    exact ⟨_, .intro k j hl, l, rfl, hs⟩
  · rintro ⟨_, h, l, rfl, hs⟩
    obtain ⟨k, text⟩ := d
    cases h with
    | intro k j hl => exact .intro k j (scalarLiteral_iff.2 ⟨l, hl, hs⟩)

theorem DefaultEntry.exists_singleton {ts rest : List Token} {es : List Entry}
    (h : DefaultEntry ts es rest) : ∃ k l, es = [.defaultQuery ⟨false, [k]⟩ (.ok l)] := by
  cases h with
  | intro k j hl => exact ⟨k, _, rfl⟩

/-- Tokens that declare defaults one by one give entries that do. -/
theorem forall₂_declaresDefault_iff [Grammar] {ds : List (List Token)}
    {decl : List (String × String)} : List.Forall₂ DeclaresDefault ds decl ↔
      ∃ des, InTurn Part.Gives (ds.map .default) des ∧ List.Forall₂ Entry.IsDefault des decl := by
  induction ds generalizing decl with
  | nil =>
    rw [List.forall₂_nil_left_iff]
    constructor
    · rintro rfl
      exact ⟨[], .nil, .nil⟩
    · rintro ⟨des, hg, hd⟩
      cases InTurn.nil_iff.1 hg
      exact List.forall₂_nil_left_iff.1 hd
  | cons ts ds ih =>
    constructor
    · intro h
      cases h with
      | cons h hs =>
        obtain ⟨e, he, hd⟩ := declaresDefault_iff.1 h
        obtain ⟨des, hg, hds⟩ := ih.1 hs
        exact ⟨[e] ++ des, .cons he hg, .cons hd hds⟩
    · rintro ⟨des, hg, hd⟩
      obtain ⟨es, des, rfl, he, hg'⟩ := InTurn.cons_iff.1 hg
      obtain ⟨k, l, rfl⟩ := DefaultEntry.exists_singleton he
      cases hd with
      | cons hd hds =>
        exact .cons (declaresDefault_iff.2 ⟨_, he, hd⟩) (ih.2 ⟨des, hg', hds⟩)

/-! ### Entries that give defaults -/

namespace Entry.IsDefault

variable {e : Entry} {d : String × String} {des : List Entry} {decl : List (String × String)}

theorem default?_eq (h : e.IsDefault d) : e.default? = some d := by
  obtain ⟨l, rfl, hs⟩ := h
  simp [default?, KeyPath.single?, hs]

theorem defaultKey?_eq (h : e.IsDefault d) : e.defaultKey? = some d.1 := by
  obtain ⟨l, rfl, -⟩ := h
  rfl

theorem filterMap_default? (h : List.Forall₂ Entry.IsDefault des decl) :
    des.filterMap Entry.default? = decl := by
  induction h with
  | nil => rfl
  | cons h _ ih => rw [List.filterMap_cons_some h.default?_eq, ih]

theorem filterMap_defaultKey? (h : List.Forall₂ Entry.IsDefault des decl) :
    des.filterMap Entry.defaultKey? = decl.map Prod.fst := by
  induction h with
  | nil => rfl
  | cons h _ ih => rw [List.filterMap_cons_some h.defaultKey?_eq, ih, List.map_cons]

theorem exists_of_mem (h : List.Forall₂ Entry.IsDefault des decl) (he : e ∈ des) :
    ∃ d, e.IsDefault d := by
  induction h with
  | nil => cases he
  | cons h _ ih =>
    rcases List.mem_cons.1 he with rfl | he
    · exact ⟨_, h⟩
    · exact ih he

end Entry.IsDefault

/-- Entries that give defaults leave a route one exactly if no two of them have the same key. -/
theorem makesRoute_append_iff {ks des : List Entry} {decl : List (String × String)}
    (hroute : MakesRoute ks) (hnone : ks.filterMap Entry.defaultKey? = [])
    (hd : List.Forall₂ Entry.IsDefault des decl) :
    MakesRoute (des ++ ks) ↔ (decl.map Prod.fst).Nodup := by
  have hkeys : (des ++ ks).filterMap Entry.defaultKey? = decl.map Prod.fst := by
    rw [List.filterMap_append, Entry.IsDefault.filterMap_defaultKey? hd, hnone, List.append_nil]
  -- entries that give defaults are none of the others
  have hother {α : Type} {f : Entry → Option α}
      (hf : ∀ key value, f (.defaultQuery key value) = none) :
      (des ++ ks).filterMap f = ks.filterMap f := by
    rw [List.filterMap_append, List.filterMap_eq_nil_iff.2, List.nil_append]
    intro e he
    obtain ⟨d, l, rfl, -⟩ := Entry.IsDefault.exists_of_mem hd he
    exact hf _ _
  have hmem {e : Entry} (he : e ∈ des ++ ks) : e ∈ ks ∨ ∃ d, e.IsDefault d :=
    (List.mem_append.1 he).symm.imp_right (Entry.IsDefault.exists_of_mem hd)
  constructor
  · intro h
    exact hkeys ▸ h.defaultKeys
  · intro hnodup
    constructor
    case once =>
      rw [hother fun _ _ => rfl]
      exact hroute.once
    case required =>
      rw [hother fun _ _ => rfl]
      exact hroute.required
    case name =>
      intro v hv
      rcases hmem hv with hv | ⟨d, l, ⟨⟩, -⟩
      exact hroute.name v hv
    case method =>
      intro w hw
      rcases hmem hw with hw | ⟨d, l, ⟨⟩, -⟩
      exact hroute.method w hw
    case response =>
      intro w t hr
      rcases hmem hr with hr | ⟨d, l, ⟨⟩, -⟩
      exact hroute.response w t hr
    case defaultKeys =>
      rw [hkeys]
      exact hnodup
    case defaultValues =>
      intro key l hl
      rcases hmem hl with hl | ⟨d, l, ⟨⟩, hs⟩
      · exact hroute.defaultValues key l hl
      · exact exists_defaultText?_iff.1 ⟨_, hs⟩
    case url =>
      intro e he
      rw [hother fun _ _ => rfl]
      rcases hmem he with he | ⟨d, l, ⟨⟩, -⟩
      exact hroute.url e he

/-- Entries of defaults with scalars for values give defaults. -/
theorem exists_isDefault [Grammar] {ds : List (List Token)} {des : List Entry}
    (h : InTurn Part.Gives (ds.map .default) des)
    (hs : ∀ key l, .defaultQuery key (.ok l) ∈ des → l.kind ≠ .other) :
    ∃ decl, List.Forall₂ Entry.IsDefault des decl := by
  induction ds generalizing des with
  | nil =>
    cases InTurn.nil_iff.1 h
    exact ⟨[], .nil⟩
  | cons ts ds ih =>
    obtain ⟨es, fs, rfl, he, hg⟩ := InTurn.cons_iff.1 h
    obtain ⟨k, l, rfl⟩ := DefaultEntry.exists_singleton he
    obtain ⟨text, htext⟩ := exists_defaultText?_iff.2 (hs _ _ (List.mem_cons_self))
    obtain ⟨decl, hd⟩ := ih hg fun key l hl => hs key l (List.mem_cons_of_mem _ hl)
    exact ⟨(k, text) :: decl, .cons ⟨l, rfl, htext⟩ hd⟩

/-! ### Entries between commas -/

/-- Tokens without a comma among them. -/
def CommaFree (ts : List Token) : Prop := ∀ j, Token.mark ',' j ∉ ts

/-- What trails behind tokens without a comma is known from the whole. -/
theorem CommaFree.trailing_eq {ts us rest tail : List Token} (hts : CommaFree ts)
    (hus : CommaFree us) (hr : Trailing rest) (ht : Trailing tail) (h : ts ++ rest = us ++ tail) :
    rest = tail := by
  rcases List.append_eq_append_iff.1 h with ⟨as, rfl, rfl⟩ | ⟨as, rfl, rfl⟩
  · cases as with
    | nil => rfl
    | cons a as =>
      cases hr with
      | comma j => exact absurd (List.mem_append_right _ List.mem_cons_self) (hus j)
  · cases as with
    | nil => rfl
    | cons a as =>
      cases ht with
      | comma j => exact absurd (List.mem_append_right _ List.mem_cons_self) (hts j)

theorem IsLiteral.exists_commaFree {ts rest : List Token} {l : Literal} (h : IsLiteral ts l rest) :
    ∃ us, ts = us ++ rest ∧ CommaFree us := by
  cases h with
  | literal s k => exact ⟨[.literal s k], rfl, fun j => by simp⟩
  | @truth w => exact ⟨[.word w], rfl, fun j => by simp⟩
  | @signed c i s k k' _ hk =>
    refine ⟨[.mark c i, .literal s k], rfl, fun j => ?_⟩
    have hc : ',' ≠ c := by
      rintro rfl
      cases k <;> cases hk
    simp [hc]

/-- Between commas stands one default at most. -/
theorem CommaFree.whole [Grammar] {ts : List Token} (h : CommaFree ts) :
    (Part.default ts).Whole := by
  intro tail es rest ht hr hd
  generalize hus : ts ++ tail = us at hd
  cases hd with
  | intro k j hl =>
    obtain ⟨vs, rfl, hvs⟩ := hl.exists_commaFree
    have hfree : CommaFree (.word k :: .mark '=' j :: vs) := fun i => by simpa using hvs i
    exact hfree.trailing_eq h hr ht hus.symm

/-! ### Items -/

theorem InTurn.defaultKey_eq_nil [Grammar] {ps : List Part} {es : List Entry}
    (h : InTurn Part.Gives ps es) (hp : ∀ p ∈ ps, p.isDefault = false) :
    es.filterMap Entry.defaultKey? = [] := by
  induction h with
  | nil => rfl
  | cons h _ ih =>
    obtain ⟨hp, hps⟩ := List.forall_mem_cons.1 hp
    have hnone := h.filterMap_eq_nil hp fun e k hk => Entry.defaultKey?_eq_none hk
    rw [List.filterMap_append, hnone, ih hps, List.append_nil]

/-- The keys of an item give the entries `ks`, and beside them stand `ds`, the tokens of defaults.
They stand between commas, in one list or in several, each of which has one at least. -/
def Item.ListsBeside [Grammar] (i : Item) (ds : List (List Token)) (ks : List Entry) : Prop :=
  ∃ ps, i.Arranges ps ∧ ps.filter Part.isDefault = ds.map .default ∧ (∀ d ∈ ds, CommaFree d) ∧
    InTurn Part.Gives (ps.filter fun p => !p.isDefault) ks

/-- The tokens declare what is a route apart from its defaults, be these, of which `ds` are the
tokens, proper ones or not. -/
def DeclaresRouteBeside [Grammar] (ts : List Token) (ds : List (List Token)) : Prop :=
  ∃ i ks, Grammar.item ts = .ok i ∧ i.kind = .unitStruct ∧ i.generic = false ∧
    i.ListsBeside ds ks ∧ MakesRoute ks

namespace Item.ListsBeside

variable [Grammar] {i : Item} {ds : List (List Token)} {ks : List Entry}

theorem defaultKey_eq_nil (h : i.ListsBeside ds ks) : ks.filterMap Entry.defaultKey? = [] := by
  obtain ⟨ps, -, -, -, hks⟩ := h
  refine hks.defaultKey_eq_nil fun p hp => ?_
  simpa using (List.mem_filter.1 hp).2

variable [LawfulGrammar]

/-- The entries that an item lists are what its parts give. -/
theorem exists_parts (h : i.ListsBeside ds ks) :
    ∃ ps, ps.filter Part.isDefault = ds.map .default ∧
      InTurn Part.Gives (ps.filter fun p => !p.isDefault) ks ∧
      ∀ es, i.Lists es ↔ InTurn Part.Gives ps es := by
  obtain ⟨ps, ha, hds, hfree, hks⟩ := h
  refine ⟨ps, hds, hks, fun es => ha.lists_iff fun p hp => ?_⟩
  cases hd : p.isDefault with
  | true =>
    have hm : p ∈ ds.map .default := hds ▸ List.mem_filter.2 ⟨hp, hd⟩
    obtain ⟨d, hmem, rfl⟩ := List.mem_map.1 hm
    exact @CommaFree.whole _ d (hfree d hmem)
  | false => exact hks.whole p (List.mem_filter.2 ⟨hp, by rw [hd]; rfl⟩)

/-- The entries of an item make a route exactly if its keys and its defaults do together. -/
theorem makesRoute_iff (h : i.ListsBeside ds ks) : (∃ es, i.Lists es ∧ MakesRoute es) ↔
    ∃ des, InTurn Part.Gives (ds.map .default) des ∧ MakesRoute (des ++ ks) := by
  obtain ⟨ps, hds, hks, hlists⟩ := h.exists_parts
  have hperm := List.filter_append_perm Part.isDefault ps
  rw [hds] at hperm
  constructor
  · rintro ⟨es, hl, hm⟩
    obtain ⟨fs, hfs, hp⟩ := ((hlists es).1 hl).perm hperm.symm
    obtain ⟨des, ks', rfl, hdes, hks'⟩ := InTurn.append_iff.1 hfs
    cases InTurn.unique (fun h h' => h.unique h') hks hks'
    exact ⟨des, hdes, hm.perm hp⟩
  · rintro ⟨des, hdes, hm⟩
    obtain ⟨es, hes, hp⟩ := (hdes.append hks).perm hperm
    exact ⟨es, (hlists es).2 hes, hm.perm hp⟩

/-- The defaults of an item are listed in the order in which they stand. -/
theorem default_eq (h : i.ListsBeside ds ks) {es des : List Entry} (hl : i.Lists es)
    (hdes : InTurn Part.Gives (ds.map .default) des) :
    es.filterMap Entry.default? = des.filterMap Entry.default? := by
  obtain ⟨ps, hds, -, hlists⟩ := h.exists_parts
  obtain ⟨des', hdes', he⟩ := ((hlists es).1 hl).exists_default
  rw [hds] at hdes'
  rw [he, InTurn.unique (fun h h' => h.unique h') hdes' hdes]

/-- An item that is a route but for its defaults is accepted exactly if these have keys of their own
and scalars for values. -/
theorem accepts_iff (h : i.ListsBeside ds ks) (hk : i.kind = .unitStruct)
    (hg : i.generic = false) (hroute : MakesRoute ks) : (∃ x, i.derive = .ok x) ↔
      ∃ decl, List.Forall₂ DeclaresDefault ds decl ∧ (decl.map Prod.fst).Nodup := by
  rw [Declaration.accepts_iff, and_iff_right hk, and_iff_right hg, h.makesRoute_iff]
  have hnone := h.defaultKey_eq_nil
  constructor
  · rintro ⟨des, hdes, hm⟩
    obtain ⟨decl, hd⟩ := exists_isDefault hdes fun key l hl =>
      hm.defaultValues key l (List.mem_append_left _ hl)
    exact ⟨decl, forall₂_declaresDefault_iff.2 ⟨des, hdes, hd⟩,
      (makesRoute_append_iff hroute hnone hd).1 hm⟩
  · rintro ⟨decl, hdecl, hn⟩
    obtain ⟨des, hdes, hd⟩ := forall₂_declaresDefault_iff.1 hdecl
    exact ⟨des, hdes, (makesRoute_append_iff hroute hnone hd).2 hn⟩

/-- The defaults of what is accepted are those that are declared. -/
theorem defaults_eq (h : i.ListsBeside ds ks) {x : Implementation} (hx : i.derive = .ok x)
    {decl : List (String × String)} (hdecl : List.Forall₂ DeclaresDefault ds decl) :
    x.defaults = decl ∧ (decl.map Prod.fst).Nodup := by
  obtain ⟨-, c, hc, hx⟩ := derive_eq_ok_iff.1 hx
  obtain ⟨_, _, _, _, _, -, -, -, -, -, rfl⟩ := implementation_eq_ok_iff.1 hx
  have hg := Config.Gathers.of_ofEntries hc
  have hl : i.Lists i.entries := Item.lists_iff.2 ⟨rfl, fun e he => (hg.valid e he).wellFormed⟩
  obtain ⟨des, hdes, hd⟩ := forall₂_declaresDefault_iff.1 hdecl
  have hdefaults : c.defaults = decl := by
    rw [← hg.defaults, h.default_eq hl hdes, Entry.IsDefault.filterMap_default? hd]
  exact ⟨hdefaults, hdefaults ▸ hg.nodup⟩

end Item.ListsBeside

/-! ### Declarations -/

section

variable {τ : Type} [ParamTypes τ] {ω ρ : Type}

/-- **The defaults of a route are those that are declared.** A declaration that is one of a route
apart from its defaults, which stand in any number of lists and attributes, is accepted exactly if
each default is a word with a scalar literal and no two of them have the same word. A block for the
defaults is then generated unless there are none. What the block gives, or the empty query where
there is no block, has the text of each literal under its word and nothing else, and this is what a
call sends that leaves out the query parameters. -/
theorem declared_defaults_sent [Grammar] [LawfulGrammar] {ts : List Token}
    {ds : List (List Token)} (h : DeclaresRouteBeside ts ds) :
    ((∃ x, derive ts = .ok x) ↔
        ∃ decl, List.Forall₂ DeclaresDefault ds decl ∧ (decl.map Prod.fst).Nodup) ∧
      ∀ x decl, derive ts = .ok x → List.Forall₂ DeclaresDefault ds decl →
        (x.render.defaultQuery = none ↔ decl = []) ∧
        ∃ q, x.render.evaluate? = some q ∧ (∀ k s, q.get? k = some s ↔ (k, s) ∈ decl) ∧
          ∀ (m : Meaning τ) (rs : List (Route τ)) (d : Dispatcher τ ω ρ) (c : Call (x.route m) ω),
            Schema.ofRoutes rs = .ok d.schema → x.route m ∈ rs → c.isReady = true →
            c.query.value? = none → d.Sends c q := by
  obtain ⟨i, ks, hi, hk, hg, hlists, hroute⟩ := h
  rw [derive_of_item hi]
  refine ⟨hlists.accepts_iff hk hg hroute, fun x decl hx hdecl => ?_⟩
  obtain ⟨rfl, hn⟩ := hlists.defaults_eq hx hdecl
  refine ⟨?_, x.defaultQuery, evaluate?_render x, fun k s => ?_, ?_⟩
  · show (if x.defaults = [] then none else some _) = none ↔ _
    simp
  · exact Table.get?_ofList_eq_some_iff hn
  · exact fun m rs d c hs hr hc hq => Dispatcher.sends_defaultQuery hs hr hc hq

end

namespace ListUsers

/-- The route with its defaults in two lists. -/
theorem declaresRouteBeside :
    DeclaresRouteBeside (tokens [first, between, second]) [sort, limit] := by
  have hname : Part.Gives (.key name) _ := .value (.name false _ _ [])
  have hmethod : Part.Gives (.key method) _ := .value (.method false [] rfl)
  have hurl : Part.Gives (.key url) [.url ⟨.text ⟨"users", .literal "\"users\"" (.text "users")⟩,
      [.literal "\"users\"" (.text "users")]⟩] := .value (.url false rfl)
  have hresponse : Part.Gives (.key response) _ := .value (.response false rfl rfl)
  have hks := InTurn.cons hresponse (InTurn.cons hurl (InTurn.cons hmethod
    (InTurn.cons hname InTurn.nil)))
  refine ⟨item [first, between, second], _, rfl, rfl, rfl,
    ⟨parts.reverse, arranges_apart, rfl, ?_, hks⟩, ?_⟩
  · simp [CommaFree, sort, limit]
  · constructor
    case once => decide
    case required => decide
    case name => simp [show RouteName.fault? "GET users" = none from rfl]
    case method => simp [show ∃ m, "Get" ∈ methodSpellings m from ⟨.get, by decide⟩]
    case response => simp [show formatOf? "csv" = some (.inr .csv) from rfl]
    case defaultKeys => exact List.nodup_nil
    case defaultValues => simp
    case url =>
      intro e he
      obtain rfl : e = ⟨.text _, _⟩ := by simpa using he
      exact .literal _

/-- A dispatcher whose transport answers with nothing. -/
def silent (s : Schema String) : Dispatcher String Unit Bytes := ⟨s, (), fun _ _ => (.ok [], [])⟩

/-- The defaults of both lists are sent. -/
theorem declared_defaults_sent_both :
    let x := implementation [("sort", "name"), ("limit", "10")]
    derive (tokens [first, between, second]) = .ok x ∧
      ∃ s q, Schema.ofRoutes [x.route usersMeaning] = .ok s ∧ x.render.evaluate? = some q ∧
        q.get? "limit" = some "10" ∧ q.get? "sort" = some "name" ∧
        (silent s).Sends (.start (x.route usersMeaning) ()) q := by
  intro x
  have hx : derive (tokens [first, between, second]) = .ok x := rfl
  obtain ⟨s, hs⟩ : ∃ s, Schema.ofRoutes [(implementation [("sort", "name"), ("limit", "10")]).route
      usersMeaning] = .ok s := ⟨_, rfl⟩
  have hdecl : List.Forall₂ DeclaresDefault [sort, limit] x.defaults :=
    .cons (.intro _ _ (.text _ _)) (.cons (.intro _ _ (.integer _ _)) .nil)
  have hall := (@declared_defaults_sent String _ Unit Bytes _ _ _ _ declaresRouteBeside).2
  obtain ⟨-, q, hq, hget, hsend⟩ := hall x _ hx hdecl
  refine ⟨hx, s, q, hs, hq, (hget _ _).2 ?_, (hget _ _).2 ?_, ?_⟩
  · simp [x, implementation]
  · simp [x, implementation]
  · exact hsend usersMeaning _ (silent _) _ hs (List.mem_singleton_self _) rfl rfl

end ListUsers
end Declaration
end RestDispatch
