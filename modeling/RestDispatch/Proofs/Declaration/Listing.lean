import RestDispatch.Proofs.Declaration.Keys

/-!
# The entries of route attributes

Lists of keys with commas between them, as they stand in route attributes: `ListOf` for such a
list, `DefaultEntry` and `RouteKey` for its items, and `Item.Lists` for the entries of all
attributes of an item. `Item.lists_iff` says that the entries which are read are those of the
grammar, unless one of them is malformed; `Item.Lists.writes` that they stand in the attributes as
they are written.
-/

namespace RestDispatch.Declaration

open Token Reader

/-! ### Paths of keys -/

theorem startsWithPair_mark {a c d : Char} (j : Bool) (ts : List Token) (h : (a == c) = false) :
    startsWithPair c d (.mark a j :: ts) = false := by
  cases ts with
  | nil => rfl
  | cons t ts => cases t <;> simp [startsWithPair, h]

theorem run_readMoreNames_nil {n : Nat} {ts : List Token} {s : Option Delimiter} {c' : Cursor}
    (h : (readMoreNames n).run ⟨ts, s⟩ = .ok ([], c')) : c' = ⟨ts, s⟩ := by
  cases n with
  | zero => cases h
  | succ n =>
    rw [readMoreNames, run_peek_bind] at h
    split at h
    · obtain ⟨_, _, -, h⟩ := run_bind_eq_ok.1 h
      obtain ⟨_, _, -, h⟩ := run_bind_eq_ok.1 h
      obtain ⟨_, _, -, h⟩ := run_bind_eq_ok.1 h
      cases h
    · cases h
      rfl

theorem run_readAbsolute (c : Cursor) :
    readAbsolute.run c =
      .ok (if startsWithPair ':' ':' c.tokens then (true, ⟨c.tokens.drop 2, c.stray⟩)
        else (false, c)) := by
  rw [readAbsolute, run_peek_bind]
  split <;> rfl

theorem KeyPath.eq_of_single? {p : KeyPath} {k : String} (h : p.single? = some k) :
    p = ⟨false, [k]⟩ := by
  unfold KeyPath.single? at h
  split at h
  · next ha hn =>
    cases h
    cases p
    cases ha
    cases hn
    rfl
  · cases h

/-- A path that is a single name is read from that name alone. -/
theorem of_run_readKeyPath {ts : List Token} {s : Option Delimiter} {k : String} {c' : Cursor}
    (h : readKeyPath.run ⟨ts, s⟩ = .ok (⟨false, [k]⟩, c')) : ts = .word k :: c'.tokens ∧
      c'.stray = s := by
  rw [readKeyPath, run_bind_eq_ok] at h
  obtain ⟨absolute, c, ha, h⟩ := h
  rw [run_readAbsolute] at ha
  rw [run_peek_bind] at h
  split at h
  · next w rest hc =>
    obtain ⟨_, _, hd, h⟩ := run_bind_eq_ok.1 h
    obtain ⟨_, _, hp, h⟩ := run_bind_eq_ok.1 h
    obtain ⟨names, hn, he⟩ := run_map_eq_ok.1 h
    cases he
    cases hd
    cases hp
    cases run_readMoreNames_nil hn
    split at ha
    · cases ha
    · cases ha
      dsimp only at hc
      subst hc
      exact ⟨rfl, rfl⟩
  · cases h
  · cases h
  · cases h

theorem run_readKeyPath {k : String} {ts : List Token} {s : Option Delimiter}
    (h : startsWithPair ':' ':' ts = false) :
    readKeyPath.run ⟨.word k :: ts, s⟩ = .ok (⟨false, [k]⟩, ⟨ts, s⟩) := by
  have hm : (readMoreNames (ts.length + 1)).run ⟨ts, s⟩ = .ok ([], ⟨ts, s⟩) := by
    rw [readMoreNames, run_peek_bind, h]
    rfl
  rw [readKeyPath, run_bind_eq_ok]
  refine ⟨false, ⟨.word k :: ts, s⟩, ?_, ?_⟩
  · rw [run_readAbsolute]
    cases ts <;> rfl
  · rw [run_peek_bind]
    refine run_bind_eq_ok.2 ⟨(), ⟨ts, s⟩, rfl, ?_⟩
    refine run_bind_eq_ok.2 ⟨ts, ⟨ts, s⟩, rfl, ?_⟩
    exact run_map_eq_ok.2 ⟨[], hm, rfl⟩

/-! ### Lists -/

/-- A list of items with commas between them, and perhaps one after the last. -/
inductive ListOf (item : List Token → List Entry → List Token → Prop) :
    List Token → List Entry → Prop
  | last {ts : List Token} {es : List Entry} (h : item ts es []) : ListOf item ts es
  | comma {ts : List Token} {es : List Entry} (j : Bool) (h : item ts es [.mark ',' j]) :
      ListOf item ts es
  | cons {ts rest : List Token} {es fs : List Entry} (j : Bool)
      (h : item ts es (.mark ',' j :: rest)) (hr : ListOf item rest fs) : ListOf item ts (es ++ fs)

/-- Tokens that begin with a default query parameter, and those after it. -/
inductive DefaultEntry : List Token → List Entry → List Token → Prop
  | intro {ts rest : List Token} {l : Literal} (k : String) (j : Bool) (h : IsLiteral ts l rest) :
      DefaultEntry (.word k :: .mark '=' j :: ts) [.defaultQuery ⟨false, [k]⟩ (.ok l)] rest

/-- Tokens that begin with a key and all that is given for it, and those after them. -/
inductive RouteKey [Grammar] : List Token → List Entry → List Token → Prop
  | value {ts rest : List Token} {e : Entry} (h : KeyEntry ts e rest) : RouteKey ts [e] rest
  | defaults {content : List Token} {es : List Entry} (rest : List Token)
      (h : ListOf DefaultEntry content es) :
      RouteKey (.word "default_query" :: .group .parenthesis content :: rest) es rest

/-- An entry that the grammar admits. -/
def Entry.WellFormed : Entry → Prop
  | .defaultQuery key value => key.single?.isSome = true ∧ ∃ l, value = .ok l
  | .malformed _ => False
  | _ => True

theorem exists_of_failed {f : DeclarationFault} {es : List Entry}
    (h : Listing.failed f = ⟨es, none⟩) : ∃ e ∈ es, ¬ e.WellFormed := by
  cases h
  exact ⟨_, List.mem_singleton_self _, id⟩

/-- The items that a reader of items reads are those of a grammar. -/
structure ItemSpec (read : KeyPath → Cursor → Listing)
    (item : List Token → List Entry → List Token → Prop) : Prop where
  reads : ∀ {ts es rest}, item ts es rest → ∃ path us,
    readKeyPath.run ⟨ts, none⟩ = .ok (path, ⟨us, none⟩) ∧
      read path ⟨us, none⟩ = ⟨es, some ⟨rest, none⟩⟩
  weight_lt : ∀ {ts es rest}, item ts es rest → weightOfList rest < weightOfList ts
  of_read : ∀ {ts s path c es rest}, readKeyPath.run ⟨ts, s⟩ = .ok (path, c) →
    read path c = ⟨es, some ⟨rest, none⟩⟩ → (∀ e ∈ es, e.WellFormed) → s = none ∧ item ts es rest
  malformed : ∀ {path c es}, read path c = ⟨es, none⟩ → ∃ e ∈ es, ¬ e.WellFormed

/-- After an item either nothing is left or a comma, with an item after it or not. -/
theorem run_readSeparator_cases {ts : List Token} {s : Option Delimiter} {b : Bool} {c' : Cursor}
    (h : readSeparator.run ⟨ts, s⟩ = .ok (b, c')) :
    (ts = [] ∧ b = false ∧ c' = ⟨[], s⟩) ∨
      ∃ j rest, ts = .mark ',' j :: rest ∧ b = !rest.isEmpty ∧ c' = ⟨rest, s⟩ := by
  rw [readSeparator, run_peek_bind] at h
  split at h
  · next hts =>
    cases h
    exact .inl ⟨List.isEmpty_iff.1 hts, rfl, by rw [← List.isEmpty_iff.1 hts]⟩
  · obtain ⟨j, rest, rfl, hr⟩ := run_marked_eq_ok.1 h
    rw [run_peek_bind] at hr
    cases hr
    exact .inr ⟨j, rest, rfl, rfl, rfl⟩

theorem run_readSeparator_nil (s : Option Delimiter) :
    readSeparator.run ⟨[], s⟩ = .ok (false, ⟨[], s⟩) := rfl

theorem run_readSeparator_comma (j : Bool) (rest : List Token) (s : Option Delimiter) :
    readSeparator.run ⟨.mark ',' j :: rest, s⟩ = .ok (!rest.isEmpty, ⟨rest, s⟩) := rfl

namespace ItemSpec

variable {read : KeyPath → Cursor → Listing} {item : List Token → List Entry → List Token → Prop}

theorem readList (hi : ItemSpec read item) {ts : List Token} {es : List Entry}
    (h : ListOf item ts es) {n : Nat} (hn : weightOfList ts < n) :
    readList read n ⟨ts, none⟩ = ⟨es, some ⟨[], none⟩⟩ := by
  induction h generalizing n with
  | last h =>
    obtain ⟨path, us, hp, hr⟩ := hi.reads h
    cases n with
    | zero => omega
    | succ n => simp [Declaration.readList, hp, hr, Listing.andThen, run_readSeparator_nil]
  | comma j h =>
    obtain ⟨path, us, hp, hr⟩ := hi.reads h
    cases n with
    | zero => omega
    | succ n => simp [Declaration.readList, hp, hr, Listing.andThen, run_readSeparator_comma]
  | @cons ts rest es fs j h hs ih =>
    obtain ⟨path, us, hp, hr⟩ := hi.reads h
    have hw := hi.weight_lt h
    rw [weightOfList_cons] at hw
    -- a list has an item, so the comma before this one is not the last token
    have hne : rest.isEmpty = false := by
      cases rest with
      | cons t rest => rfl
      | nil => cases hs <;> exact absurd (hi.weight_lt ‹_›) (Nat.not_lt_zero _)
    cases n with
    | zero => omega
    | succ n =>
      have hl := ih (n := n) (by omega)
      simp [Declaration.readList, hp, hr, Listing.andThen, run_readSeparator_comma, hne, hl]

theorem of_readList (hi : ItemSpec read item) {n : Nat} {ts rest : List Token}
    {s : Option Delimiter} {es : List Entry}
    (h : Declaration.readList read n ⟨ts, s⟩ = ⟨es, some ⟨rest, none⟩⟩)
    (he : ∀ e ∈ es, e.WellFormed) : s = none ∧ rest = [] ∧ ListOf item ts es := by
  induction n generalizing ts s es with
  | zero => cases h
  | succ n ih =>
    unfold Declaration.readList at h
    split at h
    · cases h
    · next path c hp =>
      cases hr : read path c with
      | mk es₁ r =>
      rw [hr] at h
      cases r with
      | none => cases h
      | some c₁ =>
        obtain ⟨us, s₁⟩ := c₁
        rw [Listing.andThen] at h
        dsimp only at h
        split at h
        · cases h
        · next c₂ hs =>
          obtain ⟨rfl, hb, rfl⟩ | ⟨j, us, rfl, hb, rfl⟩ := run_readSeparator_cases hs
          · cases hb
          · cases hl : Declaration.readList read n ⟨us, s₁⟩ with
            | mk fs r =>
              rw [hl] at h
              cases h
              obtain ⟨rfl, rfl, hf⟩ := ih hl fun e hm => he e (List.mem_append_right _ hm)
              obtain ⟨rfl, hi⟩ := hi.of_read hp hr fun e hm => he e (List.mem_append_left _ hm)
              exact ⟨rfl, rfl, .cons j hi hf⟩
        -- no item follows, though a comma may
        · next c₂ hs =>
          rw [List.append_nil] at h
          obtain ⟨rfl, hb, rfl⟩ | ⟨j, us, rfl, hb, rfl⟩ := run_readSeparator_cases hs
          · cases h
            obtain ⟨rfl, hi⟩ := hi.of_read hp hr he
            exact ⟨rfl, rfl, .last hi⟩
          · obtain rfl : us = [] := by simpa using hb
            cases h
            obtain ⟨rfl, hi⟩ := hi.of_read hp hr he
            exact ⟨rfl, rfl, .comma j hi⟩

theorem malformed_readList (hi : ItemSpec read item) {n : Nat} {c : Cursor} {es : List Entry}
    (h : Declaration.readList read n c = ⟨es, none⟩) : ∃ e ∈ es, ¬ e.WellFormed := by
  induction n generalizing c es with
  | zero => exact exists_of_failed h
  | succ n ih =>
    unfold Declaration.readList at h
    split at h
    · exact exists_of_failed h
    · next path c hp =>
      cases hr : read path c with
      | mk es₁ r =>
      rw [hr] at h
      cases r with
      | none =>
        cases h
        exact hi.malformed hr
      | some c₁ =>
        rw [Listing.andThen] at h
        dsimp only at h
        -- what follows the item is malformed
        have hrest : ∀ {l : Listing}, (∀ us, l = ⟨us, none⟩ → ∃ e ∈ us, ¬ e.WellFormed) →
            (⟨es₁ ++ l.entries, l.rest⟩ : Listing) = ⟨es, none⟩ → ∃ e ∈ es, ¬ e.WellFormed := by
          rintro ⟨us, r⟩ hl he
          cases he
          obtain ⟨e, hm, hn⟩ := hl us rfl
          exact ⟨e, List.mem_append_right _ hm, hn⟩
        split at h
        · exact hrest (fun us => exists_of_failed) h
        · exact hrest (fun us => ih) h
        · cases h

end ItemSpec

/-- Tokens begin with one item at most. -/
theorem ItemSpec.unique {read : KeyPath → Cursor → Listing}
    {item : List Token → List Entry → List Token → Prop} (hi : ItemSpec read item)
    {ts rest rest' : List Token} {es es' : List Entry} (h : item ts es rest)
    (h' : item ts es' rest') : es = es' ∧ rest = rest' := by
  obtain ⟨path, us, hp, hr⟩ := hi.reads h
  obtain ⟨path', us', hp', hr'⟩ := hi.reads h'
  cases hp.symm.trans hp'
  cases hr.symm.trans hr'
  exact ⟨rfl, rfl⟩

theorem defaultSpec : ItemSpec readDefault DefaultEntry where
  reads := by
    intro ts es rest h
    cases h with
    | intro k j hl =>
    refine ⟨_, _, run_readKeyPath (startsWithPair_mark j _ rfl), ?_⟩
    have hv : readDefaultValue.run ⟨.mark '=' j :: _, none⟩ = .ok (_, ⟨rest, none⟩) :=
      run_marked_eq_ok.2 ⟨j, _, rfl, run_literal_eq_ok.2 ⟨rest, hl, rfl⟩⟩
    rw [readDefault, hv]
  weight_lt := by
    intro ts es rest h
    cases h with
    | intro k j hl => cases hl <;> simp [weight] <;> omega
  of_read := by
    intro ts s path c es rest hp hr he
    unfold readDefault at hr
    split at hr
    · cases hr
    · next l c₁ hv =>
      cases hr
      obtain ⟨us, s'⟩ := c
      obtain ⟨k, hk⟩ := Option.isSome_iff_exists.1 (he _ (List.mem_singleton_self _)).1
      obtain rfl := KeyPath.eq_of_single? hk
      obtain ⟨rfl, rfl⟩ := of_run_readKeyPath hp
      obtain ⟨j, us, rfl, hv⟩ := run_marked_eq_ok.1 hv
      obtain ⟨_, hl, hs⟩ := run_literal_eq_ok.1 hv
      cases hs
      exact ⟨rfl, .intro k j hl⟩
  malformed := by
    intro path c es hr
    unfold readDefault at hr
    split at hr
    · cases hr
      refine ⟨_, List.mem_singleton_self _, ?_⟩
      rintro ⟨-, l, hl⟩
      cases hl
    · cases hr

/-- What is read of the default query parameters between parentheses. -/
theorem readDefaults_cases {c : Cursor} {es : List Entry} {r : Option Cursor}
    (h : readDefaults c = ⟨es, r⟩) :
    (∃ f, Listing.failed f = ⟨es, r⟩) ∨
      ∃ content rest l, c.tokens = .group .parenthesis content :: rest ∧
        readList readDefault (weightOfList content + 1) ⟨content, c.stray⟩ = ⟨es, l⟩ ∧
        r = l.map fun inner => ⟨rest, inner.stray⟩ := by
  unfold readDefaults at h
  split at h
  · next content rest hc =>
    cases h
    exact .inr ⟨content, rest, _, hc, rfl, rfl⟩
  · exact .inl ⟨_, h⟩

/-! ### Defaults before more tokens -/

section Tail

variable {ts rest tail : List Token} {es : List Entry}

theorem defaultEntry_iff : DefaultEntry ts es rest ↔
    ∃ k us l, ts = .word k :: us ∧ es = [.defaultQuery ⟨false, [k]⟩ (.ok l)] ∧
      readDefaultValue.run ⟨us, none⟩ = .ok (l, ⟨rest, none⟩) := by
  constructor
  · rintro ⟨k, j, h⟩
    refine ⟨k, _, _, rfl, rfl, run_marked_eq_ok.2 ⟨j, _, rfl, ?_⟩⟩
    exact run_literal_eq_ok.2 ⟨rest, h, rfl⟩
  · rintro ⟨k, us, l, rfl, rfl, h⟩
    obtain ⟨j, us, rfl, h⟩ := run_marked_eq_ok.1 h
    obtain ⟨_, hl, ⟨⟩⟩ := run_literal_eq_ok.1 h
    exact .intro k j hl

theorem Agrees.defaultValue : Extends tail 1 ts readDefaultValue readDefaultValue :=
  .bind (.mark '=') fun _ _ _ => Agrees.literal.mono (by omega)

/-- A default query parameter is the same alone and before a comma. -/
theorem defaultEntry_append_iff (ht : Trailing tail) :
    DefaultEntry (ts ++ tail) es (rest ++ tail) ↔ DefaultEntry ts es rest := by
  rw [defaultEntry_iff, defaultEntry_iff]
  constructor
  · rintro ⟨k, us, l, hts, rfl, h⟩
    cases ts with
    | nil => cases ht <;> cases hts
    | cons t ts =>
      cases hts
      exact ⟨k, ts, l, rfl, rfl, (Agrees.defaultValue.restrict h).2⟩
  · rintro ⟨k, us, l, rfl, rfl, h⟩
    exact ⟨k, _, l, rfl, rfl, (Agrees.defaultValue.extend h).2⟩

theorem DefaultEntry.suffix (h : DefaultEntry ts es rest) : rest <:+ ts := by
  obtain ⟨k, us, l, rfl, -, hr⟩ := defaultEntry_iff.1 h
  exact (readDefaultValue.suffix hr).trans (List.suffix_cons _ _)

end Tail

theorem ListOf.wellFormed {item : List Token → List Entry → List Token → Prop} {ts : List Token}
    {es : List Entry} (h : ListOf item ts es)
    (hi : ∀ {ts es rest}, item ts es rest → ∀ e ∈ es, e.WellFormed) : ∀ e ∈ es, e.WellFormed := by
  induction h with
  | last h => exact hi h
  | comma j h => exact hi h
  | cons j h _ ih => exact fun e hm => (List.mem_append.1 hm).elim (hi h e) (ih e)

/-- An entry of a list is one of an item that stands in the list. -/
theorem ListOf.exists_item {item : List Token → List Entry → List Token → Prop} {ts : List Token}
    {es : List Entry} (h : ListOf item ts es)
    (hs : ∀ {ts es rest}, item ts es rest → rest <:+ ts) {e : Entry} (he : e ∈ es) :
    ∃ us fs rest, us <:+ ts ∧ item us fs rest ∧ e ∈ fs := by
  induction h with
  | last h => exact ⟨_, _, _, List.suffix_refl _, h, he⟩
  | comma j h => exact ⟨_, _, _, List.suffix_refl _, h, he⟩
  | cons j h _ ih =>
    rcases List.mem_append.1 he with he | he
    · exact ⟨_, _, _, List.suffix_refl _, h, he⟩
    · obtain ⟨us, fs, rest, hu, hi, hf⟩ := ih he
      exact ⟨us, fs, rest, (hu.trans (List.suffix_cons _ _)).trans (hs h), hi, hf⟩

/-- What the members of a list give, one after the other. -/
inductive InTurn {α β : Type} (gives : α → List β → Prop) : List α → List β → Prop
  | nil : InTurn gives [] []
  | cons {a : α} {as : List α} {bs cs : List β} (h : gives a bs) (hs : InTurn gives as cs) :
      InTurn gives (a :: as) (bs ++ cs)

theorem InTurn.exists_of_mem {α β : Type} {gives : α → List β → Prop} {as : List α} {bs : List β}
    (h : InTurn gives as bs) {b : β} (hb : b ∈ bs) : ∃ a cs, a ∈ as ∧ gives a cs ∧ b ∈ cs := by
  induction h with
  | nil => cases hb
  | cons h _ ih =>
    rcases List.mem_append.1 hb with hb | hb
    · exact ⟨_, _, List.mem_cons_self, h, hb⟩
    · obtain ⟨a, cs, ha, hg, hc⟩ := ih hb
      exact ⟨a, cs, List.mem_cons_of_mem _ ha, hg, hc⟩

theorem DefaultEntry.wellFormed {ts rest : List Token} {es : List Entry}
    (h : DefaultEntry ts es rest) : ∀ e ∈ es, e.WellFormed := by
  cases h with
  | @intro _ _ l k j =>
    intro e hm
    cases List.mem_singleton.1 hm
    exact ⟨rfl, l, rfl⟩

/-! ### Keys -/

variable [Grammar]

theorem KeyEntry.exists_key {ts rest : List Token} {e : Entry} (h : KeyEntry ts e rest) :
    ∃ key us, ts = .word key :: us ∧ key ≠ "default_query" ∧ startsWithPair ':' ':' us = false := by
  cases h with
  | name j | method j | url j | pathParams j | queryParams j | data j | response j
  | typedResponse j => exact ⟨_, _, rfl, by decide, startsWithPair_mark j _ rfl⟩

theorem readKey_default (c : Cursor) : readKey ⟨false, ["default_query"]⟩ c = readDefaults c :=
  if_pos rfl

theorem readKey_value {path : KeyPath} (h : path.single? ≠ some "default_query") (c : Cursor) :
    readKey path c =
      match (readEntry (path.single?.getD "")).run c with
      | .error f => .failed f
      | .ok (e, c) => ⟨[e], some c⟩ := if_neg h

theorem keySpec : ItemSpec readKey RouteKey where
  reads := by
    intro ts es rest h
    cases h with
    | value h =>
      obtain ⟨key, us, rfl, hk, hp⟩ := h.exists_key
      refine ⟨_, us, run_readKeyPath hp, ?_⟩
      have hr : (readEntry key).run ⟨us, none⟩ = .ok (_, ⟨rest, none⟩) :=
        run_readEntry_eq_ok.2 ⟨rfl, h⟩
      rw [readKey_value (by simpa [KeyPath.single?] using hk)]
      change (match (readEntry key).run ⟨us, none⟩ with | .error f => _ | .ok (e, c) => _) = _
      rw [hr]
    | @defaults content es _ h =>
      refine ⟨_, _, run_readKeyPath rfl, ?_⟩
      have hl := defaultSpec.readList h (Nat.lt_succ_self (weightOfList content))
      rw [readKey_default, readDefaults]
      dsimp only
      rw [hl]
      rfl
  weight_lt := by
    intro ts es rest h
    cases h with
    | value h => exact h.weight_lt
    | defaults _ h => simp [weight]; omega
  of_read := by
    intro ts s path c es rest hp hr he
    obtain ⟨us, s'⟩ := c
    by_cases hk : path.single? = some "default_query"
    · obtain rfl := KeyPath.eq_of_single? hk
      obtain ⟨rfl, rfl⟩ := of_run_readKeyPath hp
      rw [readKey_default] at hr
      obtain ⟨f, hf⟩ | ⟨content, us, l, rfl, hl, hr⟩ := readDefaults_cases hr
      · cases hf
      · obtain ⟨⟨inner, s'⟩, rfl, hr⟩ := Option.map_eq_some_iff.1 hr.symm
        cases hr
        obtain ⟨hs, -, hl⟩ := defaultSpec.of_readList hl he
        exact ⟨hs, .defaults _ hl⟩
    · rw [readKey_value hk] at hr
      split at hr
      · cases hr
      · next e c₁ hv =>
        cases hr
        cases hs : path.single? with
        | none =>
          rw [hs] at hv
          cases hv
        | some key =>
          obtain rfl := KeyPath.eq_of_single? hs
          obtain ⟨rfl, rfl⟩ := of_run_readKeyPath hp
          obtain ⟨hs', hv⟩ := run_readEntry_eq_ok.1 hv
          exact ⟨hs', .value hv⟩
  malformed := by
    intro path c es hr
    by_cases hk : path.single? = some "default_query"
    · obtain rfl := KeyPath.eq_of_single? hk
      rw [readKey_default] at hr
      obtain ⟨f, hf⟩ | ⟨content, us, l, hc, hl, hr⟩ := readDefaults_cases hr
      · exact exists_of_failed hf
      · obtain rfl := Option.map_eq_none_iff.1 hr.symm
        exact defaultSpec.malformed_readList hl
    · rw [readKey_value hk] at hr
      split at hr
      · exact exists_of_failed hr
      · cases hr

section Tail

variable {ts rest tail : List Token} {es : List Entry}

theorem routeKey_iff : RouteKey ts es rest ↔
    (∃ e, es = [e] ∧ KeyEntry ts e rest) ∨
      ∃ content, ts = .word "default_query" :: .group .parenthesis content :: rest ∧
        ListOf DefaultEntry content es := by
  constructor
  · intro h
    cases h with
    | value h => exact .inl ⟨_, rfl, h⟩
    | defaults _ h => exact .inr ⟨_, rfl, h⟩
  · rintro (⟨e, rfl, h⟩ | ⟨content, rfl, h⟩)
    · exact .value h
    · exact .defaults rest h

/-- A key with all that is given for it is the same alone and before a comma. -/
theorem routeKey_append_iff [LawfulGrammar] (ht : Trailing tail) :
    RouteKey (ts ++ tail) es (rest ++ tail) ↔ RouteKey ts es rest := by
  simp only [routeKey_iff, keyEntry_append_iff ht]
  refine or_congr_right (exists_congr fun content => and_congr_left fun _ => ?_)
  rw [← List.cons_append, ← List.cons_append, List.append_left_inj]

end Tail

theorem RouteKey.wellFormed {ts rest : List Token} {es : List Entry} (h : RouteKey ts es rest) :
    ∀ e ∈ es, e.WellFormed := by
  cases h with
  | value h =>
    intro e hm
    cases List.mem_singleton.1 hm
    cases h <;> trivial
  | defaults _ h => exact h.wellFormed DefaultEntry.wellFormed

/-! ### Attributes -/

/-- The entries that an attribute lists: none unless it is a route attribute, which has to have a
list of keys. -/
inductive Attribute.Lists (a : Attribute) : List Entry → Prop
  | other (h : a.path.single? ≠ some "route") : a.Lists []
  | empty (h : a.path.single? = some "route") (hc : a.arguments = .list []) : a.Lists []
  | keys {content : List Token} {es : List Entry} (h : a.path.single? = some "route")
      (hc : a.arguments = .list content) (hl : ListOf RouteKey content es) : a.Lists es

/-- The entries that the attributes of an item list. -/
def Item.Lists (i : Item) (es : List Entry) : Prop := InTurn Attribute.Lists i.attributes es

theorem Attribute.Lists.wellFormed {a : Attribute} {es : List Entry} (h : a.Lists es) :
    ∀ e ∈ es, e.WellFormed := by
  cases h with
  | other | empty => simp
  | keys _ _ hl => exact hl.wellFormed RouteKey.wellFormed

theorem Attribute.Lists.entries_eq {a : Attribute} {es : List Entry} (h : a.Lists es) :
    a.entries = es := by
  cases h with
  | other h => rw [entries, if_neg h]
  | empty h hc => rw [entries, if_pos h, hc]
  | @keys content es h hc hl =>
    rw [entries, if_pos h, hc]
    have hr := keySpec.readList hl (Nat.lt_succ_self (weightOfList content))
    cases content with
    | nil => cases hl <;> exact absurd (keySpec.weight_lt ‹_›) (Nat.not_lt_zero _)
    | cons t ts =>
      change ((readList readKey _ _).andThen strayListing).entries = es
      rw [hr]
      exact List.append_nil es

/-- The entries of an attribute in the grammar are those that are read, when none is malformed. -/
theorem Attribute.lists_iff {a : Attribute} {es : List Entry} :
    a.Lists es ↔ a.entries = es ∧ ∀ e ∈ es, e.WellFormed := by
  refine ⟨fun h => ⟨h.entries_eq, h.wellFormed⟩, ?_⟩
  rintro ⟨rfl, he⟩
  unfold entries at he ⊢
  split at he
  · next h =>
    rw [if_pos h]
    split at he
    · exact absurd (he _ (List.mem_singleton_self _)) id
    · exact absurd (he _ (List.mem_singleton_self _)) id
    · next hc => exact .empty h hc
    · next content _ hc =>
      cases hl : readList readKey (weightOfList content + 1) ⟨content, none⟩ with
      | mk es r =>
      rw [hl] at he
      cases r with
      | none =>
        obtain ⟨e, hm, hn⟩ := keySpec.malformed_readList hl
        exact absurd (he e hm) hn
      | some c =>
        obtain ⟨rest, stray⟩ := c
        cases stray with
        | some d => exact absurd (he _ (List.mem_append_right _ (List.mem_singleton_self _))) id
        | none =>
          change ∀ e ∈ es ++ [], e.WellFormed at he
          change a.Lists (es ++ [])
          rw [List.append_nil] at he ⊢
          exact .keys h hc (keySpec.of_readList hl he).2.2
  · next h =>
    rw [if_neg h]
    exact .other h

/-- The entries of an item in the grammar are those that are read, when none is malformed. -/
theorem Item.lists_iff {i : Item} {es : List Entry} :
    i.Lists es ↔ i.entries = es ∧ ∀ e ∈ es, e.WellFormed := by
  rw [Lists, entries]
  generalize i.attributes = as
  constructor
  · intro h
    induction h with
    | nil => exact ⟨rfl, by simp⟩
    | cons h _ ih =>
      rw [List.flatMap_cons, h.entries_eq, ih.1]
      exact ⟨rfl, fun e hm => (List.mem_append.1 hm).elim (h.wellFormed e) (ih.2 e)⟩
  · rintro ⟨rfl, he⟩
    induction as with
    | nil => exact .nil
    | cons a as ih =>
      rw [List.flatMap_cons] at he ⊢
      refine .cons (Attribute.lists_iff.2 ⟨rfl, fun e hm => ?_⟩) (ih fun e hm => ?_)
      · exact he e (List.mem_append_left _ hm)
      · exact he e (List.mem_append_right _ hm)

/-! ### Entries as they are written -/

theorem RouteKey.suffix {ts rest : List Token} {es : List Entry} (h : RouteKey ts es rest) :
    rest <:+ ts := by
  cases h with
  | value h => exact h.suffix
  | defaults _ h => exact (List.suffix_cons _ _).trans (List.suffix_cons _ _)

/-- An entry that is written as a key with its value is listed for one in a route attribute. -/
theorem Item.Lists.exists_keyEntry {i : Item} {es : List Entry} (h : i.Lists es) {e : Entry}
    (he : e ∈ es) (hw : e.written?.isSome = true) :
    ∃ a before us rest, a ∈ i.attributes ∧ a.path.single? = some "route" ∧
      a.arguments = .list (before ++ us) ∧ KeyEntry us e rest := by
  obtain ⟨a, fs, ha, hl, he⟩ := InTurn.exists_of_mem h he
  cases hl with
  | other | empty => cases he
  | @keys content _ hr hc hl =>
    obtain ⟨us, es, rest, ⟨before, rfl⟩, hk, he⟩ := hl.exists_item RouteKey.suffix he
    cases hk with
    | value hk =>
      cases List.mem_singleton.1 he
      exact ⟨a, before, us, rest, ha, hr, hc, hk⟩
    | defaults _ hd =>
      obtain ⟨_, _, _, -, hd, he⟩ := hd.exists_item DefaultEntry.suffix he
      cases hd with
      | intro k j hl =>
        cases List.mem_singleton.1 he
        cases hw

/-- An entry stands in a route attribute of an item: its word, a sign of equality and its value,
token for token. -/
def Item.Writes (i : Item) (e : Entry) : Prop :=
  ∃ a before word j value after, a ∈ i.attributes ∧ a.path.single? = some "route" ∧
    e.written? = some (word, value) ∧
    a.arguments = .list (before ++ .word word :: .mark '=' j :: (value ++ after))

section Lawful

variable [LawfulGrammar] {i : Item} {es : List Entry}

/-- The entries that an item lists stand in its attributes. -/
theorem Item.Lists.writes (h : i.Lists es) {e : Entry} (he : e ∈ es)
    (hw : e.written?.isSome = true) : i.Writes e := by
  obtain ⟨a, before, us, rest, ha, hr, hc, hk⟩ := h.exists_keyEntry he hw
  obtain ⟨word, value, j, hw, rfl⟩ := hk.exists_written
  exact ⟨a, before, word, j, value, rest, ha, hr, hw, hc⟩

/-- The types of the parameters of a closure that an item lists stand in the closure. -/
theorem Item.Lists.closure_tokens (h : i.Lists es) {e : Expr} (he : .url e ∈ es)
    {ps : List (Option Ty)} (hform : e.form = .closure ps) {t : Ty} (ht : some t ∈ ps) :
    t.tokens <:+: e.tokens := by
  obtain ⟨_, _, _, _, -, -, -, hk⟩ := h.exists_keyEntry he rfl
  cases hk with
  | url j hk => exact LawfulGrammar.closure_tokens hk hform ht

end Lawful

end RestDispatch.Declaration
