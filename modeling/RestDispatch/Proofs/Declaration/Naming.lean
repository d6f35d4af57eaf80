import RestDispatch.Proofs.Declaration.Generation

/-!
# One grammar for names

A name is checked where a route is declared and again where the route is registered, by two checks
that do not know of each other. `Breaks` is the grammar that they have in common: the rule that a
text breaks first. `name_grammar_agrees` says that both go by it, so that a route that is made of a
declaration is never the one whose name a schema refuses.
-/

namespace RestDispatch

/-! ### The grammar -/

namespace RouteName

/-- A text that is a name. -/
structure Admits (s : String) : Prop where
  nonempty : s ≠ ""
  first : ∀ c ∈ s.toList.head?, Text.isBlank c = false
  last : ∀ c ∈ s.toList.getLast?, Text.isBlank c = false
  clean : ∀ c ∈ s.toList, Text.isControl c = false

/-- The rule that a text breaks first. A blank that is a control character as well, as a tab is,
counts as a blank at the ends of a text and as a control character within. -/
inductive Breaks (s : String) : RouteNameFault → Prop
  | empty (h : s = "") : Breaks s .empty
  | surroundingBlank {c : Char} (h : c ∈ s.toList.head? ∨ c ∈ s.toList.getLast?)
      (hc : Text.isBlank c = true) : Breaks s .surroundingBlank
  | control {before after : List Char} {c : Char}
      (first : ∀ d ∈ s.toList.head?, Text.isBlank d = false)
      (last : ∀ d ∈ s.toList.getLast?, Text.isBlank d = false)
      (h : s.toList = before ++ c :: after) (hb : ∀ d ∈ before, Text.isControl d = false)
      (hc : Text.isControl c = true) : Breaks s (.control c)

/-- A text has blanks to lose if it begins or ends with one. -/
theorem trimBlank_ne_iff {cs : List Char} : Text.trimBlank cs ≠ cs ↔
    ∃ c, (c ∈ cs.head? ∨ c ∈ cs.getLast?) ∧ Text.isBlank c = true := by
  rw [Ne, Text.trimBlank_eq_self_iff]
  constructor
  · intro h
    by_contra hn
    push Not at hn
    exact h ⟨fun c hc => Bool.eq_false_iff.2 (hn c (.inl hc)),
      fun c hc => Bool.eq_false_iff.2 (hn c (.inr hc))⟩
  · rintro ⟨c, hc | hc, hb⟩ ⟨hfirst, hlast⟩
    · cases hb.symm.trans (hfirst c hc)
    · cases hb.symm.trans (hlast c hc)

/-- A text is a name and has no fault, or its fault is the rule that it breaks. -/
theorem fault?_cases (s : String) :
    (fault? s = none ∧ Admits s) ∨ ∃ f, fault? s = some f ∧ Breaks s f := by
  unfold fault?
  dsimp only
  split
  · next he => exact .inr ⟨_, rfl, .empty (String.toList_eq_nil_iff.1 he)⟩
  · next hne =>
    split
    · next hb =>
      obtain ⟨c, hc, hb⟩ := trimBlank_ne_iff.1 hb
      exact .inr ⟨_, rfl, .surroundingBlank hc hb⟩
    · next hb =>
      obtain ⟨hfirst, hlast⟩ := Text.trimBlank_eq_self_iff.1 (Decidable.not_not.1 hb)
      cases hc : s.toList.find? Text.isControl with
      | none =>
        refine .inl ⟨rfl, fun he => hne (String.toList_eq_nil_iff.2 he), hfirst, hlast, ?_⟩
        exact fun c hm => Bool.eq_false_iff.2 (List.find?_eq_none.1 hc c hm)
      | some c =>
        obtain ⟨hctl, before, after, hs, hbefore⟩ := List.find?_eq_some_iff_append.1 hc
        exact .inr ⟨_, rfl, .control hfirst hlast hs (fun d hd => by simpa using hbefore d hd) hctl⟩

theorem Breaks.fault?_eq {s : String} {f : RouteNameFault} (h : Breaks s f) :
    fault? s = some f := by
  cases h with
  | empty h =>
    subst h
    rfl
  | surroundingBlank h hc =>
    have hne : s.toList ≠ [] := by
      rintro hn
      simp [hn] at h
    rw [fault?, if_neg hne, if_pos (trimBlank_ne_iff.2 ⟨_, h, hc⟩)]
  | @control before after c first last h hb hc =>
    have hne : s.toList ≠ [] := by simp [h]
    have hfind : s.toList.find? Text.isControl = some c :=
      List.find?_eq_some_iff_append.2 ⟨hc, before, after, h, fun d hd => by simp [hb d hd]⟩
    rw [fault?, if_neg hne, if_neg (not_not_intro (Text.trimBlank_eq_self_iff.2 ⟨first, last⟩)),
      hfind]
    rfl

/-- A name breaks no rule. -/
theorem Admits.not_breaks {s : String} (h : Admits s) {f : RouteNameFault} : ¬ Breaks s f := by
  rintro (he | ⟨hc | hc, hb⟩ | ⟨_, _, hs, _, hc⟩)
  · exact h.nonempty he
  · cases hb.symm.trans (h.first _ hc)
  · cases hb.symm.trans (h.last _ hc)
  · cases hc.symm.trans (h.clean _ (by simp [hs]))

theorem fault?_eq_some_iff {s : String} {f : RouteNameFault} : fault? s = some f ↔ Breaks s f := by
  refine ⟨fun h => ?_, Breaks.fault?_eq⟩
  rcases fault?_cases s with ⟨hn, -⟩ | ⟨f', hf, hb⟩
  · cases hn.symm.trans h
  · cases hf.symm.trans h
    exact hb

theorem fault?_eq_none_iff {s : String} : fault? s = none ↔ Admits s := by
  rcases fault?_cases s with ⟨hn, ha⟩ | ⟨f, hf, hb⟩
  · exact iff_of_true hn ha
  · refine iff_of_false (fun hn => ?_) fun ha => ha.not_breaks hb
    cases hn.symm.trans hf

/-- The grammar admits the texts that there are names of. -/
theorem exists_ofString_iff {s : String} : (∃ n, ofString s = .ok n) ↔ Admits s := by
  rw [← fault?_eq_none_iff]
  constructor
  · rintro ⟨n, hn⟩
    exact ofString_eq_ok_iff.1 hn ▸ n.valid
  · exact fun h => ⟨⟨s, h⟩, ofString_eq_ok_iff.2 rfl⟩

end RouteName

/-! ### Registration -/

section

variable {τ : Type} [ParamTypes τ]

/-- A route with a valid name is not the one over which a schema fails for a name: without it, the
schema fails all the same. -/
theorem Schema.ofRoutes_of_append_cons {before after : List (Route τ)} {r : Route τ}
    (hr : RouteName.fault? r.name = none) {f : RouteNameFault}
    (h : ofRoutes (before ++ r :: after) = .error (.invalidRouteName f)) :
    ofRoutes (before ++ after) = .error (.invalidRouteName f) := by
  rw [ofRoutes_eq_error_iff] at h ⊢
  obtain ⟨done, q, rest, heq, hw, ho⟩ := h
  cases ho with
  | invalid hf =>
    -- the route stands before the one that is refused or after it, as it is not that one
    rcases List.append_eq_append_iff.1 heq with ⟨between, rfl, ha⟩ | ⟨between, rfl, ha⟩
    · cases between with
      | nil =>
        cases ha
        cases hr.symm.trans hf
      | cons p ps =>
        cases ha
        refine ⟨before ++ ps, q, rest, by simp, hw.sublist ?_, .invalid hf⟩
        exact (List.sublist_cons_self _ _).append_left _
    · cases between with
      | nil =>
        cases ha
        cases hr.symm.trans hf
      | cons p ps =>
        cases ha
        exact ⟨done, q, ps ++ after, by simp, hw, .invalid hf⟩

/-- Where a schema fails for a name, it is that of a route. -/
theorem Schema.exists_breaks_of_ofRoutes {rs : List (Route τ)} {f : RouteNameFault}
    (h : ofRoutes rs = .error (.invalidRouteName f)) : ∃ r ∈ rs, RouteName.Breaks r.name f := by
  obtain ⟨before, r, after, rfl, -, ho⟩ := ofRoutes_eq_error_iff.1 h
  cases ho with
  | invalid hf => exact ⟨r, by simp, RouteName.fault?_eq_some_iff.1 hf⟩

end

/-! ### Declarations -/

namespace Declaration

theorem checkName_eq_ok_iff_exists {l : StringLiteral} :
    checkName l = .ok () ↔ ∃ n, RouteName.ofString l.value = .ok n :=
  checkName_eq_ok_iff.trans
    (RouteName.fault?_eq_none_iff.trans RouteName.exists_ofString_iff.symm)

theorem checkName_eq_error_iff_exists {l : StringLiteral} {e : DeclarationFault} :
    checkName l = .error e ↔ ∃ f, RouteName.ofString l.value = .error f ∧ e = .invalidName f := by
  simp only [RouteName.ofString_eq_error_iff]
  rw [checkName_eq]
  cases RouteName.fault? l.value with
  | none => simp
  | some f => simp [eq_comm]

/-- A declaration is refused for its name if all before the name is admitted. -/
theorem derive_of_name [Grammar] {ts : List Token} {item : Item}
    (hi : Grammar.item ts = .ok item) (hf : item.fault? = none) {es rest : List Entry}
    {l : StringLiteral} (he : item.entries = es ++ .name l :: rest) {c : Config}
    (hc : Config.ofEntries es = .ok c) {f : RouteNameFault}
    (h : RouteName.ofString l.value = .error f) :
    derive ts = .error (.invalidName f) := by
  refine derive_of_ofEntries hi hf (he ▸ Config.ofEntries_of_add hc ?_ rest)
  rw [Config.add, checkName_eq_error_iff_exists.2 ⟨f, h, rfl⟩]

/-- The name of a route that is made of a declaration is valid. -/
theorem fault?_eq_none_of_derive [Grammar] {ts : List Token} {x : Implementation}
    (h : derive ts = .ok x) : RouteName.fault? x.name.value = none := by
  obtain ⟨item, -, hd⟩ := exists_item_of_derive h
  exact (named_of_derive hd).2

variable {τ : Type} [ParamTypes τ]

/-- **Names have one grammar.** A text is a name as the grammar has it, and the error for any other
is the rule that it breaks first. A name in a declaration is admitted if it is one to register a
route under, and refused for the same rule otherwise, where all before it is admitted. The route of
a declaration thus has a name, and a schema that has it and fails for a name fails for that of
another route, and without it. -/
theorem name_grammar_agrees [Grammar] (m : Meaning τ) :
    (∀ s, ((∃ n, RouteName.ofString s = .ok n) ↔ RouteName.Admits s) ∧
        (∀ n, RouteName.ofString s = .ok n → n.text = s) ∧
        ∀ f, RouteName.ofString s = .error f ↔ RouteName.Breaks s f) ∧
      (∀ l, (checkName l = .ok () ↔ ∃ n, RouteName.ofString l.value = .ok n) ∧
        ∀ e, checkName l = .error e ↔
          ∃ f, RouteName.ofString l.value = .error f ∧ e = .invalidName f) ∧
      (∀ ts item es l rest c f, Grammar.item ts = .ok item → item.fault? = none →
        item.entries = es ++ .name l :: rest → Config.ofEntries es = .ok c →
        RouteName.ofString l.value = .error f → derive ts = .error (.invalidName f)) ∧
      ∀ ts x, derive ts = .ok x → (∃ n, RouteName.ofString x.name.value = .ok n) ∧
        ∀ before after f, Schema.ofRoutes (before ++ x.route m :: after) =
            .error (.invalidRouteName f) →
          (∃ r ∈ before ++ after, RouteName.Breaks r.name f) ∧
            Schema.ofRoutes (before ++ after) = .error (.invalidRouteName f) := by
  refine ⟨fun s => ⟨RouteName.exists_ofString_iff, fun n => RouteName.ofString_eq_ok_iff.1, ?_⟩,
    fun l => ⟨checkName_eq_ok_iff_exists, fun e => checkName_eq_error_iff_exists⟩, ?_, ?_⟩
  · exact fun f => RouteName.ofString_eq_error_iff.trans RouteName.fault?_eq_some_iff
  · exact fun ts item es l rest c f hi hf he hc h => derive_of_name hi hf he hc h
  · intro ts x hx
    have hv := fault?_eq_none_of_derive hx
    refine ⟨RouteName.exists_ofString_iff.2 (RouteName.fault?_eq_none_iff.1 hv), ?_⟩
    intro before after f h
    have hrest := Schema.ofRoutes_of_append_cons hv h
    exact ⟨Schema.exists_breaks_of_ofRoutes hrest, hrest⟩

/-- A declaration with a name that begins with a tab. -/
def tabbedTokens : List Token :=
  [.mark '#' false, .group .bracket [.word "route", .group .parenthesis
      [.word "name", .mark '=' false, .literal "\"\\tGET\"" (.text "\tGET")]],
    .word "struct", .word "GetUser", .mark ';' false]

/-- A route with a tab in its name. -/
def tabbedRoute : Route String :=
  { getUserImplementation.route usersMeaning with name := "GET\tusers" }

/-- A tab is a blank where a name begins and a control character within it, and a schema with a
route of this name fails for it, with and without another one. -/
theorem name_grammar_agrees_tabbed :
    derive tabbedTokens = .error (.invalidName .surroundingBlank) ∧
      RouteName.ofString "GET\tusers" = .error (.control '\t') ∧
      (∃ n, RouteName.ofString "GET users/:id" = .ok n) ∧
      Schema.ofRoutes [tabbedRoute] = .error (.invalidRouteName (.control '\t')) := by
  obtain ⟨hgrammar, -, hname, hroute⟩ := name_grammar_agrees usersMeaning
  have hx : derive getUserTokens = .ok getUserImplementation := rfl
  have hbreaks : RouteName.Breaks "GET\tusers" (.control '\t') :=
    RouteName.fault?_eq_some_iff.1 rfl
  have hfails : Schema.ofRoutes [getUserImplementation.route usersMeaning, tabbedRoute] =
      .error (.invalidRouteName (.control '\t')) :=
    Schema.ofRoutes_eq_error_iff.2 ⟨[_], tabbedRoute, [], rfl,
      ⟨by decide, by decide⟩, .invalid hbreaks.fault?_eq⟩
  have hblank : RouteName.ofString "\tGET" = .error .surroundingBlank :=
    ((hgrammar _).2.2 _).2 (@RouteName.Breaks.surroundingBlank _ '\t' (.inl rfl) rfl)
  refine ⟨?_, ((hgrammar _).2.2 _).2 hbreaks, (hroute _ _ hx).1,
    ((hroute _ _ hx).2 [] [tabbedRoute] _ hfails).2⟩
  exact hname tabbedTokens _ [] ⟨"\tGET", .literal "\"\\tGET\"" (.text "\tGET")⟩ [] .empty _
    rfl rfl rfl rfl hblank

end Declaration
end RestDispatch
