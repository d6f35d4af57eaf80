import RestDispatch.Declaration.Implementation
import RestDispatch.Declaration.Standard
import RestDispatch.Proofs.Declaration.Gathering
import RestDispatch.Proofs.Declaration.Listing

/-!
# Which declarations are accepted

`DeclaresRoute` says of a list of tokens that it is a declaration of a route: a unit struct without
parameters, whose attributes list entries that make a route. `derive_accepts` says that these are
the declarations that are accepted, and that every other one has a single fault.
-/

namespace RestDispatch.Declaration

open Config

/-! ### Rules for the values of keys -/

/-- A path that ends in `Option` with one type as its only argument. -/
def Ty.IsOptionOf (t u : Ty) : Prop :=
  ∃ lead opening commas closing,
    t = .path false lead "Option" (some ⟨opening, [.type u], commas, closing⟩)

theorem Ty.optionArgument?_eq_some_iff {t u : Ty} :
    t.optionArgument? = some u ↔ t.IsOptionOf u := by
  constructor
  · intro h
    unfold optionArgument? at h
    split at h
    · cases h
      exact ⟨_, _, _, _, rfl⟩
    · cases h
  · rintro ⟨lead, opening, commas, closing, rfl⟩
    rfl

theorem Ty.optionArgument?_eq_none_iff {t : Ty} :
    t.optionArgument? = none ↔ ∀ u, ¬ t.IsOptionOf u := by
  rw [Option.eq_none_iff_forall_ne_some]
  exact forall_congr' fun u => not_congr Ty.optionArgument?_eq_some_iff

/-- The expressions that give the URL of a route, with the types that are declared for its path
parameters: a string, a closure that has no parameter or takes a reference or an option of one, or
a path to a function. -/
inductive ExprForm.GivesUrl : ExprForm → List Ty → Prop
  | literal (l : StringLiteral) : GivesUrl (.text l) []
  | constant : GivesUrl (.closure []) []
  | reference (marks : List Token) (t : Ty) : GivesUrl (.closure [some (.reference marks t)]) []
  | option {t u : Ty} {marks : List Token} (h : t.IsOptionOf (.reference marks u)) :
      GivesUrl (.closure [some t]) []
  | function : GivesUrl .path []
  | functionOf (t : Ty) : GivesUrl .path [t]

/-- The entries make a route. -/
structure MakesRoute (es : List Entry) : Prop where
  once : (es.filterMap Entry.key?).Nodup
  required : ∀ k ∈ [Key.name, .method, .url, .response], k ∈ es.filterMap Entry.key?
  name : ∀ v, .name v ∈ es → RouteName.fault? v.value = none
  method : ∀ w, .method w ∈ es → ∃ m, w ∈ methodSpellings m
  response : ∀ w t, .response w t ∈ es → ∃ f, formatOf? w = some f ∧ t.isSome = f.isLeft
  defaultKeys : (es.filterMap Entry.defaultKey?).Nodup
  defaultValues : ∀ key l, .defaultQuery key (.ok l) ∈ es → l.kind ≠ .other
  url : ∀ e, .url e ∈ es → e.form.GivesUrl (es.filterMap Entry.pathParams?)

/-- The tokens declare a route. -/
def DeclaresRoute [Grammar] (ts : List Token) : Prop :=
  ∃ i es, Grammar.item ts = .ok i ∧ i.kind = .unitStruct ∧ i.generic = false ∧ i.Lists es ∧
    MakesRoute es

theorem exists_methodOf?_iff {w : String} :
    (∃ m, methodOf? w = some m) ↔ ∃ m, w ∈ methodSpellings m := by
  have hall : ∀ m, m ∈ Method.all := fun m => by cases m <;> decide
  rw [← Option.isSome_iff_exists, methodOf?, List.find?_isSome]
  simp only [hall, true_and, List.contains_iff_mem]

theorem exists_ofEntry_iff {w : String} {t : Option Ty} :
    (∃ r, ResponseDeclaration.ofEntry w t = .ok r) ↔
      ∃ f, formatOf? w = some f ∧ t.isSome = f.isLeft := by
  unfold ResponseDeclaration.ofEntry
  cases formatOf? w with
  | none => simp
  | some f => cases f <;> cases t <;> simp

theorem exists_defaultText?_iff {l : Literal} :
    (∃ s, defaultText? l = some s) ↔ l.kind ≠ .other := by
  obtain ⟨k, ts⟩ := l
  cases k <;> simp [defaultText?]

/-- A closure is classified exactly if it gives a URL. -/
theorem exists_ofClosure_iff {e : Expr} {ps : List (Option Ty)} :
    (∃ form, UrlForm.ofClosure e ps = .ok form) ↔ (ExprForm.closure ps).GivesUrl [] := by
  constructor
  · rintro ⟨form, h⟩
    unfold UrlForm.ofClosure at h
    split at h
    · exact .constant
    · cases h
    · cases h
    · exact .reference _ _
    · split at h
      · next ho => exact .option (Ty.optionArgument?_eq_some_iff.1 ho)
      · cases h
  · intro h
    cases h with
    | constant => exact ⟨_, rfl⟩
    | reference marks t => exact ⟨_, rfl⟩
    | option h =>
      obtain ⟨lead, opening, commas, closing, rfl⟩ := h
      exact ⟨_, rfl⟩

/-- An expression is classified exactly if it gives a URL. -/
theorem exists_classify_iff {e : Expr} {params : Option Ty} :
    (∃ form, UrlForm.classify e params = .ok form) ↔ e.form.GivesUrl params.toList := by
  unfold UrlForm.classify
  cases hf : e.form with
  | text l =>
    cases params with
    | none => exact ⟨fun _ => .literal l, fun _ => ⟨_, rfl⟩⟩
    | some t => exact ⟨fun ⟨_, h⟩ => (nomatch h), fun h => (nomatch h)⟩
  | closure ps =>
    cases params with
    | none => exact exists_ofClosure_iff
    | some t => exact ⟨fun ⟨_, h⟩ => (nomatch h), fun h => (nomatch h)⟩
  | path =>
    cases params with
    | none => exact ⟨fun _ => .function, fun _ => ⟨_, rfl⟩⟩
    | some t => exact ⟨fun _ => .functionOf t, fun _ => ⟨_, rfl⟩⟩
  | literal => exact ⟨fun ⟨_, h⟩ => (nomatch h), fun h => (nomatch h)⟩
  | other => exact ⟨fun ⟨_, h⟩ => (nomatch h), fun h => (nomatch h)⟩

/-! ### Entries that fit -/

theorem valid_iff {es : List Entry} (hw : ∀ e ∈ es, e.WellFormed) : (∀ e ∈ es, e.Valid) ↔
    (∀ v, .name v ∈ es → RouteName.fault? v.value = none) ∧
      (∀ w, .method w ∈ es → ∃ m, w ∈ methodSpellings m) ∧
      (∀ w t, .response w t ∈ es → ∃ f, formatOf? w = some f ∧ t.isSome = f.isLeft) ∧
      ∀ key l, .defaultQuery key (.ok l) ∈ es → l.kind ≠ .other := by
  constructor
  · intro h
    refine ⟨fun v hv => h _ hv, fun w hm => exists_methodOf?_iff.1 (h _ hm),
      fun w t hr => exists_ofEntry_iff.1 (h _ hr), fun key l hd => ?_⟩
    obtain ⟨k, l', s, -, he, hs⟩ := h _ hd
    cases he
    exact exists_defaultText?_iff.1 ⟨s, hs⟩
  · rintro ⟨hname, hmethod, hresponse, hdefault⟩ e he
    cases e with
    | name v => exact hname v he
    | method w => exact exists_methodOf?_iff.2 (hmethod w he)
    | response w t => exact exists_ofEntry_iff.2 (hresponse w t he)
    | defaultQuery key value =>
      obtain ⟨hk, l, rfl⟩ := hw _ he
      obtain ⟨k, hk⟩ := Option.isSome_iff_exists.1 hk
      obtain ⟨s, hs⟩ := exists_defaultText?_iff.2 (hdefault key l he)
      exact ⟨k, l, s, hk, rfl, hs⟩
    | malformed f => exact hw _ he
    | _ => trivial

theorem Entry.Valid.wellFormed {e : Entry} (h : e.Valid) : e.WellFormed := by
  cases e with
  | defaultQuery key value =>
    obtain ⟨k, l, s, hk, hl, -⟩ := h
    exact ⟨by rw [hk]; rfl, l, hl⟩
  | malformed f => exact h
  | _ => trivial

/-! ### Items -/

/-- The keys make a route if those that every route has are set, and the URL can be classified. -/
theorem implementation_eq_ok_iff {c : Config} {n : String} {x : Implementation} :
    c.implementation n = .ok x ↔ ∃ name method url response form,
      c.name = some name ∧ c.method = some method ∧ c.url = some url ∧
        c.response = some response ∧ UrlForm.classify url c.pathParams = .ok form ∧
        x = ⟨n, name, method, form, .ofDeclared c.queryParams, .ofDeclared c.data, response,
          c.defaults⟩ := by
  constructor
  · intro h
    unfold Config.implementation at h
    split at h
    · next name method url response hn hm hu hr =>
      cases hf : UrlForm.classify url c.pathParams with
      | error f =>
        rw [hf] at h
        cases h
      | ok form =>
        rw [hf] at h
        cases h
        exact ⟨name, method, url, response, form, hn, hm, hu, hr, hf, rfl⟩
    · cases h
  · rintro ⟨name, method, url, response, form, hn, hm, hu, hr, hf, rfl⟩
    rw [Config.implementation, hn, hm, hu, hr]
    dsimp only
    rw [hf]
    rfl

theorem fault?_eq_none_iff {i : Item} :
    i.fault? = none ↔ i.kind = .unitStruct ∧ i.generic = false := by
  unfold Item.fault?
  cases i.kind <;> cases i.generic <;> simp

theorem derive_eq_ok_iff [Grammar] {i : Item} {x : Implementation} : i.derive = .ok x ↔
    (i.kind = .unitStruct ∧ i.generic = false) ∧
      ∃ c, Config.ofEntries i.entries = .ok c ∧ c.implementation i.name = .ok x := by
  rw [← fault?_eq_none_iff, Item.derive]
  cases i.fault? with
  | some f => exact ⟨fun h => (nomatch h), fun h => (nomatch h.1)⟩
  | none =>
    cases hc : Config.ofEntries i.entries with
    | error f =>
      refine ⟨fun h => (nomatch h), ?_⟩
      rintro ⟨-, c, h, -⟩
      cases h
    | ok c =>
      constructor
      · intro h
        exact ⟨rfl, c, rfl, h⟩
      · rintro ⟨-, _, ⟨⟩, h⟩
        exact h

/-- Tokens are accepted as the item is that they declare. -/
theorem derive_of_item [Grammar] {ts : List Token} {item : Item} (hi : Grammar.item ts = .ok item) :
    derive ts = item.derive := by
  rw [derive, hi]
  rfl

/-- What makes a route declares an item that does. -/
theorem exists_item_of_derive [Grammar] {ts : List Token} {x : Implementation}
    (h : derive ts = .ok x) : ∃ item, Grammar.item ts = .ok item ∧ item.derive = .ok x := by
  cases hi : Grammar.item ts with
  | error f =>
    rw [derive, hi] at h
    cases h
  | ok item => exact ⟨item, rfl, (derive_of_item hi).symm.trans h⟩

/-- What the entries of an item are refused for is what its declaration is refused for. -/
theorem derive_of_ofEntries [Grammar] {ts : List Token} {item : Item}
    (hi : Grammar.item ts = .ok item) (hf : item.fault? = none) {f : DeclarationFault}
    (he : Config.ofEntries item.entries = .error f) : derive ts = .error f := by
  rw [derive_of_item hi, Item.derive, hf]
  show (Config.ofEntries item.entries).bind _ = _
  rw [he]
  rfl

theorem mem_filterMap_url? {es : List Entry} {e : Expr} :
    e ∈ es.filterMap Entry.url? ↔ .url e ∈ es := by
  rw [List.mem_filterMap]
  constructor
  · rintro ⟨d, hd, he⟩
    cases d <;> cases he
    exact hd
  · intro h
    exact ⟨_, h, rfl⟩

/-- The keys that entries set make a route exactly if the entries do. -/
theorem exists_implementation_iff {es : List Entry} {c : Config} (h : Config.Gathers es c)
    (n : String) : (∃ x, c.implementation n = .ok x) ↔
      (∀ k ∈ [Key.name, .method, .url, .response], k ∈ es.filterMap Entry.key?) ∧
        ∀ e, .url e ∈ es → e.form.GivesUrl (es.filterMap Entry.pathParams?) := by
  simp only [List.forall_mem_cons, ← h.exists_slot_iff nameSlot, ← h.exists_slot_iff methodSlot,
    ← h.exists_slot_iff urlSlot, ← h.exists_slot_iff responseSlot, ← mem_filterMap_url?,
    h.slot urlSlot, h.slot pathParamsSlot, ← exists_classify_iff, implementation_eq_ok_iff]
  constructor
  · rintro ⟨x, name, method, url, response, form, hn, hm, hu, hr, hf, rfl⟩
    refine ⟨⟨⟨name, hn⟩, ⟨method, hm⟩, ⟨url, hu⟩, ⟨response, hr⟩, by simp⟩, fun e he => ?_⟩
    rw [hu, Option.mem_toList] at he
    cases he
    exact ⟨form, hf⟩
  · rintro ⟨⟨⟨name, hn⟩, ⟨method, hm⟩, ⟨url, hu⟩, ⟨response, hr⟩, -⟩, hurl⟩
    obtain ⟨form, hf⟩ := hurl url (by rw [hu, Option.mem_toList])
    exact ⟨_, name, method, url, response, form, hn, hm, hu, hr, hf, rfl⟩

/-- An item is accepted if it is a unit struct without parameters whose entries make a route. -/
theorem accepts_iff [Grammar] {i : Item} : (∃ x, i.derive = .ok x) ↔
    i.kind = .unitStruct ∧ i.generic = false ∧ ∃ es, i.Lists es ∧ MakesRoute es := by
  constructor
  · rintro ⟨x, h⟩
    obtain ⟨⟨hk, hg⟩, c, hc, hx⟩ := derive_eq_ok_iff.1 h
    have hgather := Config.Gathers.of_ofEntries hc
    obtain ⟨honce, hkeys, hv⟩ := hgather.fits
    have hw : ∀ e ∈ i.entries, e.WellFormed := fun e he => (hv e he).wellFormed
    obtain ⟨hname, hmethod, hresponse, hdefault⟩ := (valid_iff hw).1 hv
    obtain ⟨hreq, hurl⟩ := (exists_implementation_iff hgather _).1 ⟨x, hx⟩
    refine ⟨hk, hg, i.entries, Item.lists_iff.2 ⟨rfl, hw⟩, ?_⟩
    exact ⟨honce, hreq, hname, hmethod, hresponse, hkeys, hdefault, hurl⟩
  · rintro ⟨hk, hg, es, hl, hm⟩
    obtain ⟨rfl, hw⟩ := Item.lists_iff.1 hl
    have hv := (valid_iff hw).2 ⟨hm.name, hm.method, hm.response, hm.defaultValues⟩
    obtain ⟨c, hc⟩ := Config.exists_ofEntries_iff.2 ⟨hm.once, hm.defaultKeys, hv⟩
    have hgather := Config.Gathers.of_ofEntries hc
    obtain ⟨x, hx⟩ := (exists_implementation_iff hgather i.name).2 ⟨hm.required, hm.url⟩
    exact ⟨x, derive_eq_ok_iff.2 ⟨⟨hk, hg⟩, c, hc, hx⟩⟩

/-- **The declarations of routes are what is accepted.** Every list of tokens either declares a
route, by its item and the entries of its route attributes, and makes one, or does not and has
exactly one fault. -/
theorem derive_accepts [Grammar] (ts : List Token) :
    ((∃ x, derive ts = .ok x) ↔ DeclaresRoute ts) ∧
      (¬ DeclaresRoute ts → ∃! f, derive ts = .error f) := by
  have hiff : (∃ x, derive ts = .ok x) ↔ DeclaresRoute ts := by
    rw [derive]
    cases hi : Grammar.item ts with
    -- tokens that are no item declare nothing
    | error f =>
      constructor
      · rintro ⟨x, h⟩
        cases h
      · rintro ⟨i, es, h, -⟩
        rw [hi] at h
        cases h
    | ok i =>
      change (∃ x, i.derive = .ok x) ↔ _
      rw [accepts_iff]
      constructor
      · rintro ⟨hk, hg, es, hl, hm⟩
        exact ⟨i, es, hi, hk, hg, hl, hm⟩
      · rintro ⟨j, es, hj, hk, hg, hl, hm⟩
        cases hi.symm.trans hj
        exact ⟨hk, hg, es, hl, hm⟩
  refine ⟨hiff, fun hn => ?_⟩
  cases hd : derive ts with
  | ok x => exact absurd (hiff.1 ⟨x, hd⟩) hn
  | error f => exact ⟨f, rfl, fun g hg => (Except.error.inj hg).symm⟩

/-- A route whose URL is a closure over a parameter of some type. -/
def showUserTokens (parameter : List Token) : List Token :=
  [.mark '#' false, .group .bracket [.word "route", .group .parenthesis
      ([.word "url", .mark '=' false, .mark '|' false, .word "user", .mark ':' false] ++
        parameter ++ [.mark '|' false, .word "users", .group .parenthesis [.word "user"]])],
    .mark '#' false, .group .bracket [.word "route", .group .parenthesis
      [.word "name", .mark '=' false, .literal "\"GET users/:id\"" (.text "GET users/:id"),
        .mark ',' false, .word "method", .mark '=' false, .word "Get", .mark ',' false,
        .word "data", .mark '=' false, .word "Patch", .mark '<' false, .word "true",
        .mark '>' false, .mark ',' false, .word "response", .mark '=' false, .word "json",
        .group .parenthesis [.word "User"], .mark ',' false, .word "default_query",
        .group .parenthesis [.word "full", .mark '=' false, .word "true"]]],
    .word "struct", .word "ShowUser", .mark ';' false]

/-- An option of a reference to a path. -/
def optionTokens : List Token :=
  [.word "Option", .mark '<' false, .mark '&' false, .word "UserPath", .mark '>' false]

/-- The implementation that is made with an option as the parameter. -/
def showUserImplementation : Implementation where
  typeName := "ShowUser"
  name := ⟨"GET users/:id", .literal "\"GET users/:id\"" (.text "GET users/:id")⟩
  method := .get
  url := .optionalBuilder
    ⟨.closure [some (.path false [] "Option" (some ⟨[.mark '<' false],
        [.type (.reference [.mark '&' false] (.path false [] "UserPath" none))], [],
        .mark '>' false⟩))],
      [.mark '|' false, .word "user", .mark ':' false] ++ optionTokens ++
        [.mark '|' false, .word "users", .group .parenthesis [.word "user"]]⟩
    (.path false [] "UserPath" none)
  queryParams := .forbidden
  data := .required (.path false [] "Patch" (some ⟨[.mark '<' false], [.other [.word "true"]], [],
    .mark '>' false⟩))
  response := .typed .json (.path false [] "User" none)
  defaults := [("full", "true")]

/-- A closure over an option of a reference gives a URL, and one over a value does not. -/
theorem derive_accepts_showUser :
    DeclaresRoute (showUserTokens optionTokens) ∧
      derive (showUserTokens optionTokens) = .ok showUserImplementation ∧
      ¬ DeclaresRoute (showUserTokens [.word "UserPath"]) ∧
      derive (showUserTokens [.word "UserPath"]) = .error .closureParameter := by
  have hok : derive (showUserTokens optionTokens) = .ok showUserImplementation := rfl
  have herror : derive (showUserTokens [.word "UserPath"]) = .error .closureParameter := rfl
  refine ⟨(derive_accepts _).1.1 ⟨_, hok⟩, hok, fun hn => ?_, herror⟩
  obtain ⟨x, hx⟩ := (derive_accepts _).1.2 hn
  rw [herror] at hx
  cases hx

end RestDispatch.Declaration
