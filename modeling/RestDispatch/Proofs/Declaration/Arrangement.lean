import RestDispatch.Declaration.Meaning
import RestDispatch.Proofs.Declaration.Acceptance
import RestDispatch.Proofs.Declaration.Standard

/-!
# Entries in another arrangement

The keys of a route may stand in any order, in one route attribute or in several, with other
attributes between them, and so may its default query parameters in one list or in several. A `Part`
is the tokens of one of them, `Item.Arranges` says of which parts the attributes of an item are made
up, and `derive_arranged` that it is these parts that matter and not their arrangement.
-/

namespace RestDispatch.Declaration

open Token

/-! ### Parts -/

/-- A part of the attributes of an item: the tokens of a key with its value, those of a default
query parameter, or a route attribute that has no list. -/
inductive Part
  | key (ts : List Token)
  | default (ts : List Token)
  | bare

/-- Wherever the tokens stand, an item that begins with the first of them and is followed by a comma
or by nothing ends with the last of them. -/
def IsWhole (item : List Token → List Entry → List Token → Prop) (ts : List Token) : Prop :=
  ∀ {tail es rest}, Trailing tail → Trailing rest → item (ts ++ tail) es rest → rest = tail

namespace Part

/-- The tokens of a part are no more and no less than one item, if they begin one at all. -/
def Whole [Grammar] : Part → Prop
  | .key ts => IsWhole RouteKey ts
  | .default ts => IsWhole DefaultEntry ts
  | .bare => True

/-- The entries that a part gives. -/
def Gives [Grammar] : Part → List Entry → Prop
  | .key ts, es => RouteKey ts es []
  | .default ts, es => DefaultEntry ts es []
  | .bare, _ => False

/-- Whether a part gives default query parameters. -/
def isDefault : Part → Bool
  | .key ts => startsWithWord "default_query" ts
  | .default _ => true
  | .bare => false

end Part

/-! ### Arrangements -/

/-- Pieces with commas between them, and perhaps one after the last, and the parts of all pieces. -/
inductive Joins (piece : List Token → List Part → Prop) : List Token → List Part → Prop
  | last {ts : List Token} {ps : List Part} (h : piece ts ps) : Joins piece ts ps
  | comma {ts : List Token} {ps : List Part} (j : Bool) (h : piece ts ps) :
      Joins piece (ts ++ [.mark ',' j]) ps
  | cons {ts us : List Token} {ps qs : List Part} (j : Bool) (h : piece ts ps)
      (hr : Joins piece us qs) : Joins piece (ts ++ .mark ',' j :: us) (ps ++ qs)

/-- A piece of a list of default query parameters: one of them. -/
inductive DefaultPiece : List Token → List Part → Prop
  | default {ts : List Token} (h : ts ≠ []) : DefaultPiece ts [.default ts]

/-- A piece of a route attribute: a key with its value, or a list of default query parameters. -/
inductive RoutePiece : List Token → List Part → Prop
  | key {ts : List Token} (h : ts ≠ []) : RoutePiece ts [.key ts]
  | defaults {content : List Token} {ps : List Part} (h : Joins DefaultPiece content ps) :
      RoutePiece [.word "default_query", .group .parenthesis content] ps

/-- The parts of an attribute: none unless it is a route attribute. -/
inductive Attribute.Arranges (a : Attribute) : List Part → Prop
  | other (h : a.path.single? ≠ some "route") : a.Arranges []
  | empty (h : a.path.single? = some "route") (hc : a.arguments = .list []) : a.Arranges []
  | keys {content : List Token} {ps : List Part} (h : a.path.single? = some "route")
      (hc : a.arguments = .list content) (hj : Joins RoutePiece content ps) : a.Arranges ps
  | bare (h : a.path.single? = some "route") (hc : ∀ content, a.arguments ≠ .list content) :
      a.Arranges [.bare]

/-- The parts of which the attributes of an item are made up. -/
def Item.Arranges (i : Item) (ps : List Part) : Prop := InTurn Attribute.Arranges i.attributes ps

/-! ### One after the other -/

namespace InTurn

variable {α β γ : Type} {r : α → List β → Prop} {as as' : List α} {bs bs' : List β}

theorem append (h : InTurn r as bs) (h' : InTurn r as' bs') :
    InTurn r (as ++ as') (bs ++ bs') := by
  induction h with
  | nil => exact h'
  | cons h _ ih =>
    rw [List.cons_append, List.append_assoc]
    exact .cons h ih

theorem append_iff : InTurn r (as ++ as') bs ↔
    ∃ cs cs', bs = cs ++ cs' ∧ InTurn r as cs ∧ InTurn r as' cs' := by
  constructor
  · intro h
    induction as generalizing bs with
    | nil => exact ⟨[], bs, rfl, .nil, h⟩
    | cons a as ih =>
      cases h with
      | @cons _ _ ds _ h hs =>
        obtain ⟨cs, cs', rfl, hc, hc'⟩ := ih hs
        exact ⟨ds ++ cs, cs', (List.append_assoc _ _ _).symm, .cons h hc, hc'⟩
  · rintro ⟨cs, cs', rfl, h, h'⟩
    exact h.append h'

theorem singleton_iff {a : α} : InTurn r [a] bs ↔ r a bs := by
  constructor
  · intro h
    cases h with
    | cons h hs =>
      cases hs
      rwa [List.append_nil]
  · intro h
    rw [← List.append_nil bs]
    exact .cons h .nil

theorem nil_iff : InTurn r [] bs ↔ bs = [] := by
  constructor
  · intro h
    cases h
    rfl
  · rintro rfl
    exact .nil

/-- What is given one after the other is determined if it is so for each member. -/
theorem unique (hr : ∀ {a bs bs'}, r a bs → r a bs' → bs = bs') (h : InTurn r as bs)
    (h' : InTurn r as bs') : bs = bs' := by
  induction h generalizing bs' with
  | nil => exact (nil_iff.1 h').symm
  | cons h _ ih =>
    cases h' with
    | cons h' hs' => rw [hr h h', ih hs']

/-- In another order the members give the same in another order. -/
theorem perm (h : InTurn r as bs) (hp : as.Perm as') : ∃ bs', InTurn r as' bs' ∧ bs.Perm bs' := by
  induction hp generalizing bs with
  | nil => exact ⟨bs, h, .refl _⟩
  | cons a _ ih =>
    cases h with
    | @cons _ _ cs _ h hs =>
      obtain ⟨ds, hd, hp⟩ := ih hs
      exact ⟨cs ++ ds, .cons h hd, hp.append_left cs⟩
  | swap a b as =>
    cases h with
    | @cons _ _ cs _ h hs =>
      cases hs with
      | @cons _ _ ds es h' hs =>
        refine ⟨ds ++ (cs ++ es), .cons h' (.cons h hs), ?_⟩
        rw [← List.append_assoc, ← List.append_assoc]
        exact List.perm_append_comm.append_right es
  | trans _ _ ih ih' =>
    obtain ⟨cs, hc, hp⟩ := ih h
    obtain ⟨ds, hd, hp'⟩ := ih' hc
    exact ⟨ds, hd, hp.trans hp'⟩

theorem cons_iff {a : α} : InTurn r (a :: as) bs ↔
    ∃ cs cs', bs = cs ++ cs' ∧ r a cs ∧ InTurn r as cs' := by
  rw [← List.singleton_append, append_iff]
  simp only [singleton_iff]

/-- Members that are made up of members of their own, and give what those give. -/
theorem congr {s : α → List γ → Prop} {t : γ → List β → Prop} {w : γ → Prop} {cs : List γ}
    (hst : ∀ {a cs bs}, s a cs → (∀ c ∈ cs, w c) → (r a bs ↔ InTurn t cs bs))
    (h : InTurn s as cs) (hw : ∀ c ∈ cs, w c) : InTurn r as bs ↔ InTurn t cs bs := by
  induction h generalizing bs with
  | nil => rw [nil_iff, nil_iff]
  | @cons a as cs ds h _ ih =>
    have hc bs : r a bs ↔ InTurn t cs bs := hst h fun c hc => hw c (List.mem_append_left _ hc)
    have hd bs : InTurn r as bs ↔ InTurn t ds bs := ih fun d hd => hw d (List.mem_append_right _ hd)
    simp only [cons_iff, append_iff, hc, hd]

end InTurn

/-! ### What is listed in an arrangement -/

/-- An item of a grammar that begins where a piece stands is the piece, and gives what the parts of
the piece give; every item is a piece. -/
structure PieceSpec [Grammar] (item : List Token → List Entry → List Token → Prop)
    (piece : List Token → List Part → Prop) : Prop where
  ne_nil : ∀ {ts ps}, piece ts ps → ts ≠ []
  not_nil : ∀ {es rest}, ¬ item [] es rest
  gives_iff : ∀ {ts ps tail es rest}, piece ts ps → (∀ p ∈ ps, p.Whole) → Trailing tail →
    Trailing rest → (item (ts ++ tail) es rest ↔ rest = tail ∧ InTurn Part.Gives ps es)
  divides : ∀ {ts es rest}, item ts es rest → Trailing rest →
    ∃ us ps, ts = us ++ rest ∧ piece us ps ∧ InTurn Part.Gives ps es

namespace PieceSpec

variable [Grammar] {item : List Token → List Entry → List Token → Prop}
  {piece : List Token → List Part → Prop} {ts : List Token} {ps : List Part} {es : List Entry}

theorem joins_ne_nil (hs : PieceSpec item piece) (h : Joins piece ts ps) : ts ≠ [] := by
  cases h with
  | last h => exact hs.ne_nil h
  | comma | cons => simp

/-- A list of whole pieces gives what its parts give one after the other. -/
theorem listOf_iff (hs : PieceSpec item piece) (h : Joins piece ts ps) (hw : ∀ p ∈ ps, p.Whole) :
    ListOf item ts es ↔ InTurn Part.Gives ps es := by
  induction h generalizing es with
  | @last ts ps h =>
    have hp {es rest} (hr : Trailing rest) :
        item (ts ++ []) es rest ↔ rest = [] ∧ InTurn Part.Gives ps es := hs.gives_iff h hw .nil hr
    rw [List.append_nil] at hp
    constructor
    · intro hl
      cases hl with
      | last hi => exact ((hp .nil).1 hi).2
      | comma j hi => cases ((hp (.comma j [])).1 hi).1
      | cons j hi hr => cases ((hp (.comma j _)).1 hi).1
    · intro hg
      exact .last ((hp .nil).2 ⟨rfl, hg⟩)
  | @comma ts ps j h =>
    have hp {es rest} (hr : Trailing rest) : item (ts ++ [.mark ',' j]) es rest ↔
        rest = [.mark ',' j] ∧ InTurn Part.Gives ps es := hs.gives_iff h hw (.comma j []) hr
    constructor
    · intro hl
      cases hl with
      | last hi => cases ((hp .nil).1 hi).1
      | comma i hi => exact ((hp (.comma i [])).1 hi).2
      -- the comma is the last token, and no item follows it
      | cons i hi hr =>
        cases ((hp (.comma i _)).1 hi).1
        cases hr <;> exact absurd ‹_› hs.not_nil
    · intro hg
      exact .comma j ((hp (.comma j [])).2 ⟨rfl, hg⟩)
  | @cons ts us ps qs j h hr ih =>
    have hp {es rest} (hr : Trailing rest) : item (ts ++ .mark ',' j :: us) es rest ↔
        rest = .mark ',' j :: us ∧ InTurn Part.Gives ps es :=
      hs.gives_iff h (fun p hm => hw p (List.mem_append_left _ hm)) (.comma j us) hr
    have ih {es} : ListOf item us es ↔ InTurn Part.Gives qs es :=
      ih fun p hm => hw p (List.mem_append_right _ hm)
    constructor
    · intro hl
      cases hl with
      | last hi => cases ((hp .nil).1 hi).1
      | comma i hi =>
        cases ((hp (.comma i [])).1 hi).1
        exact absurd rfl (hs.joins_ne_nil hr)
      | cons i hi hl =>
        obtain ⟨he, hg⟩ := (hp (.comma i _)).1 hi
        cases he
        exact hg.append (ih.1 hl)
    · intro hg
      obtain ⟨es, fs, rfl, hg, hg'⟩ := InTurn.append_iff.1 hg
      exact .cons j ((hp (.comma j us)).2 ⟨rfl, hg⟩) (ih.2 hg')

/-- Every list of items is one of pieces. -/
theorem exists_joins (hs : PieceSpec item piece) (h : ListOf item ts es) :
    ∃ ps, Joins piece ts ps ∧ InTurn Part.Gives ps es := by
  induction h with
  | last h =>
    obtain ⟨us, ps, rfl, hp, hg⟩ := hs.divides h .nil
    rw [List.append_nil]
    exact ⟨ps, .last hp, hg⟩
  | comma j h =>
    obtain ⟨us, ps, rfl, hp, hg⟩ := hs.divides h (.comma j [])
    exact ⟨ps, .comma j hp, hg⟩
  | cons j h _ ih =>
    obtain ⟨us, ps, rfl, hp, hg⟩ := hs.divides h (.comma j _)
    obtain ⟨qs, hj, hg'⟩ := ih
    exact ⟨ps ++ qs, .cons j hp hj, hg.append hg'⟩

end PieceSpec

/-- Whole tokens that begin an item before others are that item. -/
theorem IsWhole.item_iff {item : List Token → List Entry → List Token → Prop}
    {ts tail rest : List Token} {es : List Entry} (hw : IsWhole item ts)
    (happ : item (ts ++ tail) es ([] ++ tail) ↔ item ts es []) (ht : Trailing tail)
    (hr : Trailing rest) : item (ts ++ tail) es rest ↔ rest = tail ∧ item ts es [] := by
  constructor
  · intro h
    obtain rfl := hw ht hr h
    exact ⟨rfl, happ.1 h⟩
  · rintro ⟨rfl, h⟩
    exact happ.2 h

theorem defaultPieceSpec [Grammar] : PieceSpec DefaultEntry DefaultPiece where
  ne_nil h := by
    cases h
    assumption
  not_nil h := nomatch h
  gives_iff := by
    intro ts ps tail es rest h hw ht hr
    cases h with
    | default hne =>
      have hw : IsWhole DefaultEntry ts := hw _ (List.mem_singleton_self _)
      rw [InTurn.singleton_iff]
      exact hw.item_iff (defaultEntry_append_iff ht) ht hr
  divides := by
    intro ts es rest h hr
    obtain ⟨us, rfl⟩ := h.suffix
    have hg : DefaultEntry us es [] := (defaultEntry_append_iff hr).1 h
    refine ⟨us, _, rfl, .default ?_, InTurn.singleton_iff.2 hg⟩
    rintro rfl
    cases hg

theorem Part.Gives.unique [Grammar] {p : Part} {es es' : List Entry} (h : p.Gives es)
    (h' : p.Gives es') : es = es' := by
  cases p with
  | key ts => exact (keySpec.unique h h').1
  | default ts => exact (defaultSpec.unique h h').1
  | bare => cases h

section Lawful

variable [Grammar] [LawfulGrammar]

theorem routePieceSpec : PieceSpec RouteKey RoutePiece where
  ne_nil h := by
    cases h with
    | key h => exact h
    | defaults h => simp
  not_nil h := by
    cases h with
    | value h => cases h
  gives_iff := by
    intro ts ps tail es rest h hw ht hr
    cases h with
    | key hne =>
      have hw : IsWhole RouteKey ts := hw _ (List.mem_singleton_self _)
      rw [InTurn.singleton_iff]
      exact hw.item_iff (routeKey_append_iff ht) ht hr
    | @defaults content _ hj =>
      rw [← defaultPieceSpec.listOf_iff hj hw, routeKey_iff]
      constructor
      · rintro (⟨e, -, hk⟩ | ⟨content', he, hl⟩)
        · obtain ⟨key, us, he, hne, -⟩ := hk.exists_key
          cases he
          exact absurd rfl hne
        · cases he
          exact ⟨rfl, hl⟩
      · rintro ⟨rfl, hl⟩
        exact .inr ⟨content, rfl, hl⟩
  divides := by
    intro ts es rest h hr
    rcases routeKey_iff.1 h with ⟨e, rfl, hk⟩ | ⟨content, rfl, hl⟩
    · obtain ⟨us, rfl⟩ := hk.suffix
      have hg : KeyEntry us e [] := (keyEntry_append_iff hr).1 hk
      refine ⟨us, _, rfl, .key ?_, InTurn.singleton_iff.2 (.value hg)⟩
      rintro rfl
      cases hg
    · obtain ⟨ps, hj, hg⟩ := defaultPieceSpec.exists_joins hl
      exact ⟨_, ps, rfl, .defaults hj, hg⟩

/-- A part that gives entries is whole. -/
theorem Part.Gives.whole {p : Part} {es : List Entry} (h : p.Gives es) : p.Whole := by
  cases p with
  | key ts =>
    intro tail es' rest ht _ h'
    have happ : RouteKey (ts ++ tail) es tail := (routeKey_append_iff ht).2 h
    exact (keySpec.unique h' happ).2
  | default ts =>
    intro tail es' rest ht _ h'
    have happ : DefaultEntry (ts ++ tail) es tail := (defaultEntry_append_iff ht).2 h
    exact (defaultSpec.unique h' happ).2
  | bare => trivial

/-- An attribute of whole parts lists what these give. -/
theorem Attribute.Arranges.lists_iff {a : Attribute} {ps : List Part} {es : List Entry}
    (h : a.Arranges ps) (hw : ∀ p ∈ ps, p.Whole) : a.Lists es ↔ InTurn Part.Gives ps es := by
  cases h with
  | other h =>
    rw [InTurn.nil_iff]
    constructor
    · intro hl
      cases hl with
      | other => rfl
      | empty h' | keys h' => exact absurd h' h
    · rintro rfl
      exact .other h
  | empty h hc =>
    rw [InTurn.nil_iff]
    constructor
    · intro hl
      cases hl with
      | other h' => exact absurd h h'
      | empty => rfl
      | keys _ hc' hl =>
        cases hc.symm.trans hc'
        cases hl <;> exact absurd ‹_› routePieceSpec.not_nil
    · rintro rfl
      exact .empty h hc
  | keys h hc hj =>
    rw [← routePieceSpec.listOf_iff hj hw]
    constructor
    · intro hl
      cases hl with
      | other h' => exact absurd h h'
      | empty _ hc' =>
        cases hc.symm.trans hc'
        exact absurd rfl (routePieceSpec.joins_ne_nil hj)
      | keys _ hc' hl =>
        cases hc.symm.trans hc'
        exact hl
    · exact .keys h hc
  | bare h hc =>
    rw [InTurn.singleton_iff]
    constructor
    · intro hl
      cases hl with
      | other h' => exact absurd h h'
      | empty _ hc' | keys _ hc' => exact absurd hc' (hc _)
    · intro hg
      cases hg

/-- An item of whole parts lists what these give. -/
theorem Item.Arranges.lists_iff {i : Item} {ps : List Part} {es : List Entry} (h : i.Arranges ps)
    (hw : ∀ p ∈ ps, p.Whole) : i.Lists es ↔ InTurn Part.Gives ps es :=
  InTurn.congr (fun h hw => h.lists_iff hw) h hw

theorem Attribute.Lists.exists_arranges {a : Attribute} {es : List Entry} (h : a.Lists es) :
    ∃ ps, a.Arranges ps ∧ InTurn Part.Gives ps es := by
  cases h with
  | other h => exact ⟨[], .other h, .nil⟩
  | empty h hc => exact ⟨[], .empty h hc, .nil⟩
  | keys h hc hl =>
    obtain ⟨ps, hj, hg⟩ := routePieceSpec.exists_joins hl
    exact ⟨ps, .keys h hc hj, hg⟩

theorem InTurn.whole {ps : List Part} {es : List Entry} (h : InTurn Part.Gives ps es) :
    ∀ p ∈ ps, p.Whole := by
  induction h with
  | nil => simp
  | cons h _ ih => exact List.forall_mem_cons.2 ⟨h.whole, ih⟩

/-- The attributes of an item that lists entries are made up of whole parts. -/
theorem Item.Lists.exists_arranges {i : Item} {es : List Entry} (h : i.Lists es) :
    ∃ ps, i.Arranges ps ∧ ∀ p ∈ ps, p.Whole := by
  suffices hs : ∃ ps, i.Arranges ps ∧ InTurn Part.Gives ps es by
    obtain ⟨ps, hi, hg⟩ := hs
    exact ⟨ps, hi, hg.whole⟩
  unfold Item.Lists at h
  unfold Item.Arranges
  generalize i.attributes = as at h
  induction h with
  | nil => exact ⟨[], .nil, .nil⟩
  | cons h _ ih =>
    obtain ⟨ps, ha, hg⟩ := h.exists_arranges
    obtain ⟨qs, hi, hg'⟩ := ih
    exact ⟨ps ++ qs, .cons ha hi, hg.append hg'⟩

end Lawful

/-! ### Entries in another order -/

theorem ExprForm.GivesUrl.perm {form : ExprForm} {ts us : List Ty} (h : form.GivesUrl ts)
    (hp : ts.Perm us) : form.GivesUrl us := by
  have hl : ts.length ≤ 1 := by cases h <;> simp
  obtain rfl : ts = us := by
    match ts, hl with
    | [], _ => exact (List.nil_perm.1 hp).symm
    | [t], _ => exact List.singleton_perm.1 hp
  exact h

/-- Entries make a route in any order. -/
theorem MakesRoute.perm {es fs : List Entry} (h : MakesRoute es) (hp : es.Perm fs) :
    MakesRoute fs where
  once := (hp.filterMap _).nodup_iff.1 h.once
  required k hk := (hp.filterMap _).mem_iff.1 (h.required k hk)
  name v hv := h.name v (hp.mem_iff.2 hv)
  method w hm := h.method w (hp.mem_iff.2 hm)
  response w t hr := h.response w t (hp.mem_iff.2 hr)
  defaultKeys := (hp.filterMap _).nodup_iff.1 h.defaultKeys
  defaultValues key l hd := h.defaultValues key l (hp.mem_iff.2 hd)
  url e he := (h.url e (hp.mem_iff.2 he)).perm (hp.filterMap _)

/-- An item is accepted with its entries in any order. -/
theorem accepts_perm [Grammar] {i j : Item} (hij : j = { i with attributes := j.attributes })
    {es fs : List Entry} (hi : i.Lists es) (hj : j.Lists fs) (hp : es.Perm fs)
    (h : ∃ x, i.derive = .ok x) : ∃ y, j.derive = .ok y := by
  obtain ⟨hk, hg, es', hl, hm⟩ := accepts_iff.1 h
  obtain rfl := (Item.lists_iff.1 hl).1.symm.trans (Item.lists_iff.1 hi).1
  rw [accepts_iff, hij]
  exact ⟨hk, hg, fs, hj, hm.perm hp⟩

/-- The default query parameters have no part in what else a route is. -/
theorem implementation_withDefaults {c : Config} {n : String} {x : Implementation}
    (h : c.implementation n = .ok x) (ds : List (String × String)) :
    x.defaults = c.defaults ∧
      ({ c with defaults := ds } : Config).implementation n = .ok { x with defaults := ds } := by
  obtain ⟨name, method, url, response, form, hn, hm, hu, hr, hf, rfl⟩ :=
    implementation_eq_ok_iff.1 h
  refine ⟨rfl, implementation_eq_ok_iff.2 ?_⟩
  exact ⟨name, method, url, response, form, hn, hm, hu, hr, hf, rfl⟩

/-- Of two items with the same entries in different orders the implementations differ in nothing but
the order of the default query parameters. -/
theorem derive_perm [Grammar] {i j : Item} (hij : j = { i with attributes := j.attributes })
    {es fs : List Entry} (hi : i.Lists es) (hj : j.Lists fs) (hp : es.Perm fs)
    {x y : Implementation} (hx : i.derive = .ok x) (hy : j.derive = .ok y) :
    y = { x with defaults := y.defaults } ∧ x.defaultQuery = y.defaultQuery ∧
      (es.filterMap Entry.default? = fs.filterMap Entry.default? → x = y) := by
  obtain ⟨-, c, hc, hx⟩ := derive_eq_ok_iff.1 hx
  obtain ⟨-, d, hd, hy⟩ := derive_eq_ok_iff.1 hy
  have hc := Config.Gathers.of_ofEntries ((Item.lists_iff.1 hi).1 ▸ hc)
  have hd := Config.Gathers.of_ofEntries ((Item.lists_iff.1 hj).1 ▸ hd)
  obtain ⟨heq, hperm⟩ := hc.perm hd hp
  obtain ⟨hxc, hx⟩ := implementation_withDefaults hx d.defaults
  rw [hij, heq] at hy
  cases hx.symm.trans hy
  refine ⟨rfl, ?_, fun hds => ?_⟩
  · rw [Implementation.defaultQuery, hxc]
    exact Table.ofList_perm hperm hc.nodup
  · rw [hc.defaults, hd.defaults, ← hxc] at hds
    rw [← hds]

/-- A part that gives no default query parameter gives an entry with a key. -/
theorem Part.Gives.filterMap_eq_nil [Grammar] {α : Type} {f : Entry → Option α} {p : Part}
    {es : List Entry} (h : p.Gives es) (hp : p.isDefault = false)
    (hf : ∀ e k, e.key? = some k → f e = none) :
    es.filterMap f = [] := by
  cases p with
  | key ts =>
    rcases routeKey_iff.1 h with ⟨e, rfl, hk⟩ | ⟨content, rfl, -⟩
    · rw [List.filterMap_cons_none (by cases hk <;> exact hf _ _ rfl), List.filterMap_nil]
    · cases hp
  | default ts => cases hp
  | bare => cases h

/-- The default query parameters stand in the order of the parts that give them. -/
theorem InTurn.exists_default [Grammar] {ps : List Part} {es : List Entry}
    (h : InTurn Part.Gives ps es) : ∃ ds, InTurn Part.Gives (ps.filter Part.isDefault) ds ∧
      es.filterMap Entry.default? = ds.filterMap Entry.default? := by
  induction h with
  | nil => exact ⟨[], .nil, rfl⟩
  | @cons p ps es fs h _ ih =>
    obtain ⟨ds, hd, he⟩ := ih
    rw [List.filterMap_append, he]
    cases hp : p.isDefault with
    | true =>
      rw [List.filter_cons_of_pos hp, ← List.filterMap_append]
      exact ⟨es ++ ds, .cons h hd, rfl⟩
    | false =>
      have hnone := h.filterMap_eq_nil hp fun e k hk => Entry.default?_eq_none hk
      rw [List.filter_cons_of_neg (by simp [hp]), hnone]
      exact ⟨ds, hd, rfl⟩

/-- Two items that are made up of the same whole parts list the same entries, up to their order. -/
theorem Item.Lists.rearrange [Grammar] [LawfulGrammar] {i j : Item} {ps qs : List Part}
    {es : List Entry} (h : i.Lists es) (hi : i.Arranges ps) (hj : j.Arranges qs)
    (hp : ps.Perm qs) (hw : ∀ p ∈ ps, p.Whole) :
    ∃ fs, j.Lists fs ∧ es.Perm fs ∧
      (ps.filter Part.isDefault = qs.filter Part.isDefault →
        es.filterMap Entry.default? = fs.filterMap Entry.default?) := by
  have hes := (hi.lists_iff hw).1 h
  -- each part keeps its entries together, so they move with it
  obtain ⟨fs, hfs, hperm⟩ := hes.perm hp
  refine ⟨fs, (hj.lists_iff fun q hq => hw q (hp.mem_iff.2 hq)).2 hfs, hperm, fun hd => ?_⟩
  obtain ⟨ds, hds, he⟩ := hes.exists_default
  obtain ⟨ds', hds', hf⟩ := hfs.exists_default
  rw [← hd] at hds'
  rw [he, hf, InTurn.unique (fun h h' => h.unique h') hds hds']

/-- **The arrangement of the keys of a route does not matter.** Two declarations of the same item,
in whose attributes the same parts stand in any order and in any groups, with any other attributes
between them, are accepted or refused together. What they make is the same but for the order of the
default query parameters, which makes no difference to the query; it is the same altogether if these
parts stand in the same order. -/
theorem derive_arranged [Grammar] [LawfulGrammar] {ts us : List Token} {i j : Item}
    {ps qs : List Part} (hts : Grammar.item ts = .ok i) (hus : Grammar.item us = .ok j)
    (hij : j = { i with attributes := j.attributes }) (hi : i.Arranges ps) (hj : j.Arranges qs)
    (hp : ps.Perm qs) (hw : ∀ p ∈ ps, p.Whole) :
    ((∃ x, derive ts = .ok x) ↔ ∃ y, derive us = .ok y) ∧
      ∀ x y, derive ts = .ok x → derive us = .ok y →
        y = { x with defaults := y.defaults } ∧ x.defaultQuery = y.defaultQuery ∧
          (ps.filter Part.isDefault = qs.filter Part.isDefault → x = y) := by
  rw [derive_of_item hts, derive_of_item hus]
  refine ⟨⟨fun h => ?_, fun h => ?_⟩, fun x y hx hy => ?_⟩
  · obtain ⟨-, -, es, hes, -⟩ := accepts_iff.1 h
    obtain ⟨fs, hfs, hperm, -⟩ := hes.rearrange hi hj hp hw
    exact accepts_perm hij hes hfs hperm h
  · obtain ⟨-, -, fs, hfs, -⟩ := accepts_iff.1 h
    obtain ⟨es, hes, hperm, -⟩ := hfs.rearrange hj hi hp.symm fun q hq => hw q (hp.mem_iff.2 hq)
    exact accepts_perm (by rw [hij]) hfs hes hperm h
  · obtain ⟨-, -, es, hes, -⟩ := accepts_iff.1 ⟨x, hx⟩
    obtain ⟨fs, hfs, hperm, hdefaults⟩ := hes.rearrange hi hj hp hw
    obtain ⟨heq, hquery, hsame⟩ := derive_perm hij hes hfs hperm hx hy
    exact ⟨heq, hquery, fun hd => hsame (hdefaults hd)⟩

namespace ListUsers

/-! A route that lists users, with its keys together and apart. -/

def name : List Token :=
  [.word "name", .mark '=' false, .literal "\"GET users\"" (.text "GET users")]

def method : List Token := [.word "method", .mark '=' false, .word "Get"]

def url : List Token := [.word "url", .mark '=' false, .literal "\"users\"" (.text "users")]

def response : List Token := [.word "response", .mark '=' false, .word "csv"]

def limit : List Token := [.word "limit", .mark '=' false, .literal "10" (.integer "10")]

def sort : List Token := [.word "sort", .mark '=' false, .literal "\"name\"" (.text "name")]

/-- The keys and the default query parameters. -/
def parts : List Part :=
  [.key name, .key method, .key url, .key response, .default limit, .default sort]

/-- All of them in one attribute. -/
def together : Attribute where
  path := ⟨false, ["route"]⟩
  arguments := .list (name ++ .mark ',' false :: (method ++ .mark ',' false ::
    (url ++ .mark ',' false :: (response ++ .mark ',' false ::
      [.word "default_query", .group .parenthesis (limit ++ .mark ',' false :: sort)]))))

/-- The last of them from the last on, the default query parameters in two lists. -/
def first : Attribute where
  path := ⟨false, ["route"]⟩
  arguments := .list ([.word "default_query", .group .parenthesis (sort ++ [.mark ',' false])] ++
    .mark ',' false :: ([.word "default_query", .group .parenthesis limit] ++
      .mark ',' false :: response))

/-- An attribute of another kind. -/
def between : Attribute where
  path := ⟨false, ["allow"]⟩
  arguments := .list [.word "unused"]

/-- The others from the last on. -/
def second : Attribute where
  path := ⟨false, ["route"]⟩
  arguments := .list (url ++ .mark ',' false :: (method ++ .mark ',' false ::
    (name ++ [.mark ',' false])))

/-- The item with some attributes. -/
def item (attributes : List Attribute) : Item := ⟨attributes, .unitStruct, "ListUsers", false⟩

/-- The tokens of an attribute with a list. -/
def attributeTokens (a : Attribute) : List Token :=
  match a.arguments with
  | .list content =>
    [.mark '#' false, .group .bracket (a.path.names.map .word ++ [.group .parenthesis content])]
  | _ => []

/-- The tokens of the item with some attributes. -/
def tokens (attributes : List Attribute) : List Token :=
  attributes.flatMap attributeTokens ++ [.word "struct", .word "ListUsers", .mark ';' false]

/-- The route with some default query parameters. -/
def implementation (defaults : List (String × String)) : Implementation where
  typeName := "ListUsers"
  name := ⟨"GET users", .literal "\"GET users\"" (.text "GET users")⟩
  method := .get
  url := .literal ⟨"users", .literal "\"users\"" (.text "users")⟩
  queryParams := .forbidden
  data := .forbidden
  response := .untyped .csv
  defaults := defaults

theorem whole : ∀ p ∈ parts, p.Whole := by
  have hname : Part.Gives (.key name) _ := .value (.name false _ _ [])
  have hmethod : Part.Gives (.key method) _ := .value (.method false [] rfl)
  have hurl : Part.Gives (.key url) [.url ⟨.text ⟨"users", .literal "\"users\"" (.text "users")⟩,
      [.literal "\"users\"" (.text "users")]⟩] := .value (.url false rfl)
  have hresponse : Part.Gives (.key response) _ := .value (.response false rfl rfl)
  have hlimit : Part.Gives (.default limit) _ := .intro "limit" false (.literal _ _ [])
  have hsort : Part.Gives (.default sort) _ := .intro "sort" false (.literal _ _ [])
  have h := InTurn.cons hname (InTurn.cons hmethod (InTurn.cons hurl (InTurn.cons hresponse
    (InTurn.cons hlimit (InTurn.cons hsort InTurn.nil)))))
  exact h.whole

theorem arranges_together : (item [together]).Arranges parts := by
  have h : Joins RoutePiece _ parts :=
    Joins.cons false (RoutePiece.key (List.cons_ne_nil _ _))
      (Joins.cons false (RoutePiece.key (List.cons_ne_nil _ _))
        (Joins.cons false (RoutePiece.key (List.cons_ne_nil _ _))
          (Joins.cons false (RoutePiece.key (List.cons_ne_nil _ _))
            (Joins.last (RoutePiece.defaults
              (Joins.cons false (DefaultPiece.default (List.cons_ne_nil _ _))
                (Joins.last (DefaultPiece.default (List.cons_ne_nil _ _)))))))))
  exact InTurn.singleton_iff.2 (.keys rfl rfl h)

theorem arranges_apart : (item [first, between, second]).Arranges parts.reverse := by
  have hfirst : first.Arranges [.default sort, .default limit, .key response] := .keys rfl rfl <|
    Joins.cons false
      (RoutePiece.defaults (Joins.comma false (DefaultPiece.default (List.cons_ne_nil _ _))))
      (Joins.cons false
        (RoutePiece.defaults (Joins.last (DefaultPiece.default (List.cons_ne_nil _ _))))
        (Joins.last (RoutePiece.key (List.cons_ne_nil _ _))))
  have hbetween : between.Arranges [] := .other (by decide)
  have hsecond : second.Arranges [.key url, .key method, .key name] := .keys rfl rfl <|
    Joins.cons false (RoutePiece.key (List.cons_ne_nil _ _))
      (Joins.cons false (RoutePiece.key (List.cons_ne_nil _ _))
        (Joins.comma false (RoutePiece.key (List.cons_ne_nil _ _))))
  exact InTurn.cons hfirst (InTurn.cons hbetween (InTurn.singleton_iff.2 hsecond))

/-- The keys of one attribute, and the same keys from the last to the first in two attributes with
another between them. -/
theorem derive_arranged_apart :
    let x := implementation [("limit", "10"), ("sort", "name")]
    let y := implementation [("sort", "name"), ("limit", "10")]
    derive (tokens [together]) = .ok x ∧ derive (tokens [first, between, second]) = .ok y ∧
      x.defaultQuery = y.defaultQuery := by
  intro x y
  have hi : Grammar.item (tokens [together]) = .ok (item [together]) := rfl
  have hj : Grammar.item (tokens [first, between, second]) = .ok (item [first, between, second]) :=
    rfl
  have hx : derive (tokens [together]) = .ok x := rfl
  have hy : derive (tokens [first, between, second]) = .ok y := rfl
  obtain ⟨-, h⟩ := derive_arranged hi hj rfl arranges_together arranges_apart
    (List.reverse_perm parts).symm whole
  obtain ⟨-, hquery, -⟩ := h x y hx hy
  exact ⟨hx, hy, hquery⟩

end ListUsers
end RestDispatch.Declaration
