import RestDispatch.Declaration.Lexer
import RestDispatch.Proofs.Call.Prepare
import RestDispatch.Proofs.Declaration.Generation
import RestDispatch.Proofs.Query.Flatten

/-!
# Defaults under the parameters of a caller

A default query parameter goes by the word of its declaration, and a parameter of a caller by the
name of a field. A word may be a raw one, whose mark is no part of the name, so the two go by the
same key only if the default is declared without the mark. `caller_wins_iff` says that a parameter
of a caller stands alone for its name in this case and in no other, and that defaults are told from
each other by their words.
-/

namespace RestDispatch.Declaration

/-! ### Names -/

/-- The name that a word is for. The mark of a raw word is no part of it. -/
def bareName (w : String) : String :=
  match w.toList with
  | 'r' :: '#' :: cs => String.ofList cs
  | _ => w

/-- Whether a text is a word as a whole. -/
def IsWord (w : String) : Prop := readAnyWord? w.toList = some (w, [])

instance (w : String) : Decidable (IsWord w) := inferInstanceAs (Decidable (_ = _))

theorem isNamePart_of_readName? {cs : List Char} {w : String} {rest : List Char}
    (h : readName? cs = some (w, rest)) : ∀ c ∈ w.toList, isNamePart c = true := by
  cases cs with
  | nil => cases h
  | cons c cs =>
    rw [readName?] at h
    split at h
    · cases h
      rw [String.toList_ofList]
      exact List.all_eq_true.1 List.all_takeWhile
    · cases h

/-- The name of a word has none of the mark. -/
theorem isNamePart_of_mem_bareName {w : String} (h : IsWord w) :
    ∀ c ∈ (bareName w).toList, isNamePart c = true := by
  rw [IsWord] at h
  unfold bareName
  split
  · next cs hw =>
    rw [hw, readAnyWord?] at h
    obtain ⟨⟨u, rest⟩, hu, heq⟩ := Option.map_eq_some_iff.1 h
    have hread : readName? cs = some (u, rest) := (Option.filter_eq_some_iff.1 hu).1
    have hcs : 'r' :: '#' :: u.toList = 'r' :: '#' :: cs := by
      rw [← hw, ← (Prod.mk.inj heq).1, String.toList_append]
      rfl
    cases hcs
    rw [String.ofList_toList]
    exact isNamePart_of_readName? hread
  · next hw =>
    unfold readAnyWord? at h
    split at h
    · next rest hraw => exact absurd hraw (hw rest)
    · exact isNamePart_of_readName? h

/-- The name of a name is the name. -/
theorem bareName_bareName {w : String} (h : IsWord w) : bareName (bareName w) = bareName w := by
  have hparts := isNamePart_of_mem_bareName h
  generalize bareName w = n at hparts
  unfold bareName
  split
  · next cs hn =>
    have hmark : isNamePart '#' = true := hparts '#' (by simp [hn])
    exact absurd hmark (by decide)
  · rfl

/-- The fields of a record of query parameters, by the words that they are declared with. -/
structure ParamsRecord where
  fields : List (String × Serial)
  words : ∀ f ∈ fields, IsWord f.1
  nodup : (fields.map fun f => bareName f.1).Nodup

namespace ParamsRecord

/-- The record offers its fields under their names. -/
def serial (p : ParamsRecord) : Serial := .record (p.fields.map fun f => (bareName f.1, f.2))

/-- Whether the field of a name is set to a scalar with a text. -/
def Sets (p : ParamsRecord) (name text : String) : Prop :=
  ∃ f ∈ p.fields, bareName f.1 = name ∧ ∃ j, f.2.toJson = .ok j ∧ j.scalar? = some text

/-- The parameters of a record are the scalars among its fields. -/
theorem get?_flatten_iff {p : ParamsRecord} {caller : Query}
    (h : Query.flatten p.serial = .ok caller) {name text : String} :
    caller.get? name = some text ↔ p.Sets name text := by
  have hn : ((p.fields.map fun f => (bareName f.1, f.2)).map Prod.fst).Nodup := by
    rw [List.map_map]
    exact p.nodup
  rw [Query.get?_flatten_record hn h]
  constructor
  · rintro ⟨s, j, hm, hj, hv⟩
    obtain ⟨f, hf, heq⟩ := List.mem_map.1 hm
    cases heq
    exact ⟨f, hf, rfl, j, hj, hv⟩
  · rintro ⟨f, hf, rfl, j, hj, hv⟩
    exact ⟨f.2, j, List.mem_map.2 ⟨f, hf, rfl⟩, hj, hv⟩

theorem Sets.bareName_eq {p : ParamsRecord} {name text : String} (h : p.Sets name text) :
    bareName name = name := by
  obtain ⟨f, hf, rfl, -⟩ := h
  exact bareName_bareName (p.words f hf)

end ParamsRecord

/-! ### Defaults and parameters together -/

section

variable {defaults : List (String × String)} {caller : Query} {name text : String}

/-- The defaults of other names. -/
def otherDefaults (name : String) (defaults : List (String × String)) : List (String × String) :=
  defaults.filter fun d => bareName d.1 ≠ name

/-- What stands for a default is that of the caller, or the default where the caller gives none. -/
theorem get?_merge_iff (hn : (defaults.map Prod.fst).Nodup) {k v : String} :
    (Query.merge (.ofList defaults) caller).get? k = some v ↔
      caller.get? k = some v ∨ caller.get? k = none ∧ (k, v) ∈ defaults := by
  rw [Query.merge, Table.get?_union, ← Table.get?_ofList_eq_some_iff hn, Option.or_eq_some_iff]

/-- A parameter of a caller stands for its name alone if every default of the name goes by it. -/
theorem eq_of_mem_merge (hn : (defaults.map Prod.fst).Nodup) (htext : caller.get? name = some text)
    (hbare : ∀ k v, caller.get? k = some v → bareName k = k)
    (hd : ∀ d ∈ defaults, bareName d.1 = name → d.1 = name) {e : String × String}
    (he : e ∈ (Query.merge (.ofList defaults) caller).entries) (hname : bareName e.1 = name) :
    e = (name, text) := by
  obtain ⟨k, v⟩ := e
  rcases (get?_merge_iff hn).1 (Table.mem_entries_iff.1 he) with hv | ⟨hnone, hv⟩
  · have hk : k = name := (hbare k v hv).symm.trans hname
    subst hk
    rw [Option.some.inj (hv.symm.trans htext)]
  · have hk : k = name := hd _ hv hname
    subst hk
    cases hnone.symm.trans htext

/-- If a parameter of a caller stands for its name alone, every default of the name goes by it: any
other has an entry of its own. -/
theorem eq_of_mem_defaults (hn : (defaults.map Prod.fst).Nodup)
    (honly : ∀ e ∈ (Query.merge (.ofList defaults) caller).entries, bareName e.1 = name →
      e = (name, text)) {d : String × String} (hd : d ∈ defaults) (hname : bareName d.1 = name) :
    d.1 = name := by
  obtain ⟨v, hv⟩ : ∃ v, (Query.merge (.ofList defaults) caller).get? d.1 = some v := by
    cases hc : caller.get? d.1 with
    | some v => exact ⟨v, (get?_merge_iff hn).2 (.inl hc)⟩
    | none => exact ⟨d.2, (get?_merge_iff hn).2 (.inr ⟨hc, hd⟩)⟩
  exact congrArg Prod.fst (honly _ (Table.mem_entries_iff.2 hv) hname)

/-- The defaults that go by the name of a parameter of the caller make no difference. -/
theorem merge_eq (hn : (defaults.map Prod.fst).Nodup) (htext : caller.get? name = some text)
    (hd : ∀ d ∈ defaults, bareName d.1 = name → d.1 = name) :
    Query.merge (.ofList defaults) caller =
      .merge (.ofList (otherDefaults name defaults)) caller := by
  have hother : ((otherDefaults name defaults).map Prod.fst).Nodup :=
    (List.filter_sublist.map Prod.fst).nodup hn
  refine Table.ext_get? fun k => Option.ext fun v => ?_
  rw [get?_merge_iff hn, get?_merge_iff hother, otherDefaults, List.mem_filter]
  refine or_congr_right (and_congr_right fun hnone => ?_)
  refine (and_iff_left_of_imp fun hm => ?_).symm
  refine decide_eq_true fun hname => ?_
  have hk : k = name := hd _ hm hname
  subst hk
  cases hnone.symm.trans htext

end

/-! ### Declarations -/

/-- The defaults of an implementation have keys of their own. -/
theorem nodup_defaults_of_derive [Grammar] {ts : List Token} {i : Implementation}
    (h : derive ts = .ok i) : (i.defaults.map Prod.fst).Nodup := by
  obtain ⟨item, -, hd⟩ := exists_item_of_derive h
  obtain ⟨-, c, hc, hx⟩ := derive_eq_ok_iff.1 hd
  obtain ⟨_, _, _, _, _, -, -, -, -, -, rfl⟩ := implementation_eq_ok_iff.1 hx
  exact (Config.Gathers.of_ofEntries hc).nodup

variable {τ : Type} [ParamTypes τ] {ω : Type}

/-- What a call to a derived route with a record of query parameters is resolved to has the
parameters of the record over the defaults of the declaration. -/
theorem query_of_prepare {i : Implementation} {m : Meaning τ} {rs : List (Route τ)} {s : Schema τ}
    (hs : Schema.ofRoutes rs = .ok s) (hr : i.route m ∈ rs) {c : Call (i.route m) ω}
    {p : ParamsRecord} (hc : c.query.value? = some p.serial) {q : Request} {options : ω}
    (hq : (c.prepare s).1 = .ok (q, options)) :
    ∃ caller, Query.flatten p.serial = .ok caller ∧
      q.query = .merge (.ofList i.defaults) caller := by
  obtain ⟨entry, he, n, -, rfl⟩ := Schema.exists_get?_of_mem hs hr
  obtain ⟨-, hresolves⟩ := (Call.prepare_eq_ok_iff he).1 hq
  obtain ⟨caller, hgives, hget⟩ := hresolves.query
  rw [Call.Gives, hc] at hgives
  exact ⟨caller, hgives, Table.ext_get? fun k => (hget k).trans (Table.get?_union _ _ k).symm⟩

/-- A default of a key that has been given before is told, whatever its value is and whatever
follows it. -/
theorem ofEntries_of_mem {es : List Entry} {c : Config} (hc : Config.ofEntries es = .ok c)
    {key : KeyPath} {k : String} (hk : key.single? = some k) (hm : k ∈ c.defaults.map Prod.fst)
    (value : Except DeclarationFault Literal) (rest : List Entry) :
    Config.ofEntries (es ++ .defaultQuery key value :: rest) = .error (.duplicateDefault k) := by
  refine Config.ofEntries_of_add hc ?_ rest
  rw [Config.add, Config.addDefault, hk]
  exact if_pos (Config.any_key_iff.2 hm)

/-- A default of a scalar under a key that has not been given is added. -/
theorem ofEntries_of_notMem {es : List Entry} {c : Config} (hc : Config.ofEntries es = .ok c)
    {key : KeyPath} {k : String} (hk : key.single? = some k) (hm : k ∉ c.defaults.map Prod.fst)
    {l : Literal} {text : String} (hl : defaultText? l = some text) :
    Config.ofEntries (es ++ [.defaultQuery key (.ok l)]) =
      .ok { c with defaults := c.defaults ++ [(k, text)] } := by
  rw [Config.ofEntries_snoc, hc]
  exact (Config.Adds.defaultQuery hk hl hm).add

/-- **A caller's parameter stands over the default of its name.** Where a call to a derived route
sets the field of a name to a scalar, the request has the text of the scalar under the name. It has
nothing else for the name, and nothing of what is declared for it by default, exactly if every
default of the name is declared by the name itself, without the mark of a raw word. A default is
refused as the second of its name exactly if one before it is declared by the same word. -/
theorem caller_wins_iff [Grammar] :
    (∀ (ts : List Token) (i : Implementation) (m : Meaning τ) (rs : List (Route τ)) (s : Schema τ)
      (c : Call (i.route m) ω) (p : ParamsRecord) (q : Request) (options : ω) (name text : String),
      derive ts = .ok i → Schema.ofRoutes rs = .ok s → i.route m ∈ rs →
      c.query.value? = some p.serial → (c.prepare s).1 = .ok (q, options) → p.Sets name text →
      q.query.get? name = some text ∧
        ((∀ e ∈ q.query.entries, bareName e.1 = name → e = (name, text)) ∧
            (∃ caller, Query.flatten p.serial = .ok caller ∧
              q.query = .merge (.ofList (otherDefaults name i.defaults)) caller) ↔
          ∀ d ∈ i.defaults, bareName d.1 = name → d.1 = name)) ∧
      (∀ (es : List Entry) (config : Config) (key : KeyPath) (k : String) (l : Literal)
        (text : String), Config.ofEntries es = .ok config → key.single? = some k →
        defaultText? l = some text →
        ((∀ rest, Config.ofEntries (es ++ .defaultQuery key (.ok l) :: rest) =
            .error (.duplicateDefault k)) ↔ k ∈ config.defaults.map Prod.fst)) ∧
      ∀ (ts : List Token) (item : Item) (f : DeclarationFault), Grammar.item ts = .ok item →
        item.fault? = none → Config.ofEntries item.entries = .error f → derive ts = .error f := by
  refine ⟨?_, ?_, fun ts item f hi hf he => derive_of_ofEntries hi hf he⟩
  · intro ts i m rs s c p q options name text hi hs hr hc hq hset
    have hn := nodup_defaults_of_derive hi
    obtain ⟨caller, hflatten, hquery⟩ := query_of_prepare hs hr hc hq
    have htext := (ParamsRecord.get?_flatten_iff hflatten).2 hset
    -- the caller's parameters go by names, and these have no mark
    have hbare (k v : String) (h : caller.get? k = some v) : bareName k = k :=
      ((ParamsRecord.get?_flatten_iff hflatten).1 h).bareName_eq
    rw [hquery]
    refine ⟨(get?_merge_iff hn).2 (.inl htext), ?_, fun hd => ⟨?_, caller, hflatten, ?_⟩⟩
    · exact fun h d hd hname => eq_of_mem_defaults hn h.1 hd hname
    · exact fun e he hname => eq_of_mem_merge hn htext hbare hd he hname
    · exact merge_eq hn htext hd
  · intro es config key k l text hc hk hl
    refine ⟨fun h => ?_, fun hm rest => ofEntries_of_mem hc hk hm _ rest⟩
    refine Decidable.by_contra fun hm => ?_
    cases (h []).symm.trans (ofEntries_of_notMem hc hk hm hl)

/-- A route with default query parameters. -/
def feedTokens (defaults : List Token) : List Token :=
  [.mark '#' false, .group .bracket [.word "route", .group .parenthesis
      [.word "name", .mark '=' false, .literal "\"GET feed\"" (.text "GET feed"),
        .mark ',' false, .word "method", .mark '=' false, .word "Get",
        .mark ',' false, .word "url", .mark '=' false, .literal "\"feed\"" (.text "feed"),
        .mark ',' false, .word "query_params", .mark '=' false, .word "Filter",
        .mark ',' false, .word "default_query", .group .parenthesis defaults,
        .mark ',' false, .word "response", .mark '=' false, .word "empty"]],
    .word "struct", .word "Feed", .mark ';' false]

/-- The implementation that is made of it. -/
def feedImplementation (defaults : List (String × String)) : Implementation where
  typeName := "Feed"
  name := ⟨"GET feed", .literal "\"GET feed\"" (.text "GET feed")⟩
  method := .get
  url := .literal ⟨"feed", .literal "\"feed\"" (.text "feed")⟩
  queryParams := .required (.path false [] "Filter" none)
  data := .forbidden
  response := .untyped .empty
  defaults := defaults

/-- A call to the route. -/
def feedCall (defaults : List (String × String)) (p : ParamsRecord) :
    Call ((feedImplementation defaults).route usersMeaning) Unit where
  path := .untouched
  query := .written p.serial
  data := .untouched
  options := ()

/-- A schema of the route alone. -/
def feedSchema (defaults : List (String × String)) : Schema String :=
  ⟨(Schema.builderOf [(feedImplementation defaults).route usersMeaning]).routes⟩

/-- A default by the word `page`. -/
def pageTokens : List Token :=
  [.word "page", .mark '=' false, .literal "1" (.integer "1")]

/-- Parameters with a field of this word. -/
def pageParams : ParamsRecord where
  fields := [("page", .integer 3)]
  words := List.forall_mem_singleton.2 (by decide +kernel)
  nodup := by decide

/-- The page of the caller is asked for. -/
theorem caller_wins_page :
    derive (feedTokens pageTokens) = .ok (feedImplementation [("page", "1")]) ∧
      pageParams.Sets "page" "3" ∧
      Schema.ofRoutes [(feedImplementation [("page", "1")]).route usersMeaning] =
        .ok (feedSchema [("page", "1")]) ∧
      ∃ q, ((feedCall [("page", "1")] pageParams).prepare (feedSchema [("page", "1")])).1 =
          .ok (q, ()) ∧
        q.query.get? "page" = some "3" ∧
        ∀ e ∈ q.query.entries, bareName e.1 = "page" → e = ("page", "3") := by
  have hi : derive (feedTokens pageTokens) = .ok (feedImplementation [("page", "1")]) := rfl
  have hset : pageParams.Sets "page" "3" := ⟨_, .head _, by decide +kernel, _, rfl, rfl⟩
  have hs : Schema.ofRoutes [(feedImplementation [("page", "1")]).route usersMeaning] =
      .ok (feedSchema [("page", "1")]) := rfl
  have hq : ((feedCall [("page", "1")] pageParams).prepare (feedSchema [("page", "1")])).1 =
      .ok (_, ()) := rfl
  have h := caller_wins_iff.1 _ _ usersMeaning _ _ _ _ _ _ _ _ hi hs (List.mem_singleton_self _)
    rfl hq hset
  exact ⟨hi, hset, hs, _, hq, h.1, (h.2.2 (by decide +kernel)).1⟩

/-- Parameters with a field of a raw word. -/
def typeParams : ParamsRecord where
  fields := [("r#type", .text "open")]
  words := List.forall_mem_singleton.2 (by decide +kernel)
  nodup := by decide

/-- A default by the same raw word. -/
def typeTokens : List Token :=
  [.word "r#type", .mark '=' false, .literal "\"all\"" (.text "all")]

/-- Defaults by the two words of one name. -/
def pageTwiceTokens : List Token :=
  [.word "page", .mark '=' false, .literal "1" (.integer "1"), .mark ',' false,
    .word "r#page", .mark '=' false, .literal "2" (.integer "2")]

/-- A default by a raw word is sent beside the parameter of the caller, and one name may have two
defaults. -/
theorem raw_default_kept :
    derive (feedTokens typeTokens) = .ok (feedImplementation [("r#type", "all")]) ∧
      typeParams.Sets "type" "open" ∧
      Schema.ofRoutes [(feedImplementation [("r#type", "all")]).route usersMeaning] =
        .ok (feedSchema [("r#type", "all")]) ∧
      (∃ q, ((feedCall [("r#type", "all")] typeParams).prepare (feedSchema [("r#type", "all")])).1 =
          .ok (q, ()) ∧ q.query.entries = [("r#type", "all"), ("type", "open")]) ∧
      derive (feedTokens pageTwiceTokens) =
        .ok (feedImplementation [("page", "1"), ("r#page", "2")]) :=
  ⟨rfl, ⟨_, .head _, by decide +kernel, _, rfl, rfl⟩, rfl, ⟨_, rfl, by decide +kernel⟩, rfl⟩

end RestDispatch.Declaration
