import RestDispatch.Proofs.Declaration.Arrangement

/-!
# Types in parentheses

Parentheses are no part of what a type is, but a type in them is read as one of its own kind, and
neither a key nor a closure looks under them. So a slot whose type stands in parentheses has to be
filled, also where the type is an option or the unit type, and a closure whose parameter has such a
type is refused. `sameUse_iff` says for two declarations that differ in the parentheses around one
type when their slots are used alike.
-/

namespace RestDispatch.Declaration

open Token Reader Config

/-! ### Parentheses -/

/-- A type in one or more pairs of parentheses. -/
inductive Ty.Encloses : Ty → Ty → Prop
  | once (t : Ty) : Encloses (.paren t) t
  | more {u t : Ty} (h : Encloses u t) : Encloses (.paren u) t

theorem Ty.Encloses.exists_paren {u t : Ty} (h : u.Encloses t) : ∃ v, u = .paren v := by
  cases h with
  | once => exact ⟨_, rfl⟩
  | more => exact ⟨_, rfl⟩

/-- Parentheses are no part of what a type is. -/
theorem Ty.Encloses.bare_eq {u t : Ty} (h : u.Encloses t) : u.bare = t.bare := by
  induction h with
  | once t => rw [Ty.bare]
  | more _ ih => rw [Ty.bare, ih]

/-- An entry whose type is that of another in parentheses, be it the type that a key declares or
that of a parameter of a closure. -/
inductive Entry.Encloses : Entry → Entry → Prop
  | pathParams {u t : Ty} (h : u.Encloses t) : Encloses (.pathParams u) (.pathParams t)
  | queryParams {u t : Ty} (h : u.Encloses t) : Encloses (.queryParams u) (.queryParams t)
  | data {u t : Ty} (h : u.Encloses t) : Encloses (.data u) (.data t)
  | closure {u t : Ty} {e' e : Expr} {ps qs : List (Option Ty)} (h : u.Encloses t)
      (he' : e'.form = .closure (ps ++ some u :: qs))
      (he : e.form = .closure (ps ++ some t :: qs)) : Encloses (.url e') (.url e)

/-! ### One entry in place of another -/

namespace Config

/-- Puts the value of an entry in the place of the one that has been set. -/
def put (c : Config) : Entry → Config
  | .url e => { c with url := some e }
  | .pathParams t => { c with pathParams := some t }
  | .queryParams t => { c with queryParams := some t }
  | .data t => { c with data := some t }
  | _ => c

/-- The value of an entry is the one that has been set. -/
def Has (c : Config) : Entry → Prop
  | .url e => c.url = some e
  | .pathParams t => c.pathParams = some t
  | .queryParams t => c.queryParams = some t
  | .data t => c.data = some t
  | _ => False

variable {c : Config} {a b e : Entry}

@[simp] theorem put_name (c : Config) (b : Entry) : (c.put b).name = c.name := by
  cases b <;> rfl

@[simp] theorem put_method (c : Config) (b : Entry) : (c.put b).method = c.method := by
  cases b <;> rfl

@[simp] theorem put_response (c : Config) (b : Entry) : (c.put b).response = c.response := by
  cases b <;> rfl

@[simp] theorem put_defaults (c : Config) (b : Entry) : (c.put b).defaults = c.defaults := by
  cases b <;> rfl

theorem add_enclosing (h : b.Encloses a) : c.add b = (c.add a).map (·.put b) := by
  cases h <;> (simp only [add, setOnce]; split <;> rfl)

theorem has_of_add {c' : Config} (h : b.Encloses a) (ha : c.add a = .ok c') : c'.Has a := by
  cases h <;> cases add_eq_ok_iff.1 ha <;> rfl

theorem Has.add {c' : Config} (hc : c.Has a) (h : b.Encloses a) (he : c.add e = .ok c') :
    c'.Has a := by
  have hadds := add_eq_ok_iff.1 he
  cases h <;> cases hadds <;> simp_all [Has]

theorem addDefault_put (c : Config) (b : Entry) (key : KeyPath)
    (value : Except DeclarationFault Literal) :
    (c.put b).addDefault key value = (c.addDefault key value).map (·.put b) := by
  simp only [addDefault, put_defaults]
  cases key.single? with
  | none => rfl
  | some k =>
    dsimp only
    split
    · rfl
    · cases value with
      | error f => rfl
      | ok l =>
        dsimp only
        cases defaultText? l with
        | none => rfl
        | some s => cases b <;> rfl

/-- An entry is added or refused whatever the value is that has been set for another key. -/
theorem add_put (h : b.Encloses a) (hc : c.Has a) :
    (c.put b).add e = (c.add e).map (·.put b) := by
  cases e with
  | name v =>
    simp only [Config.add, put_name]
    cases checkName v with
    | error f => rfl
    | ok _ => cases c.name <;> cases b <;> rfl
  | method w =>
    simp only [Config.add, put_method]
    cases methodOf? w with
    | none => rfl
    | some m => cases c.method <;> cases b <;> rfl
  | response w t =>
    simp only [Config.add, put_response]
    cases ResponseDeclaration.ofEntry w t with
    | error f => rfl
    | ok r => cases c.response <;> cases b <;> rfl
  | defaultQuery key value => exact addDefault_put c b key value
  | malformed f => rfl
  -- the key that has been set is a duplicate with either value
  | url _ | pathParams _ | queryParams _ | data _ =>
    cases h <;>
      (dsimp only [Has] at hc; simp only [Config.add, put, setOnce, hc];
        first | rfl | (split <;> rfl))

theorem foldlM_put (h : b.Encloses a) (hc : c.Has a) (es : List Entry) :
    es.foldlM Config.add (c.put b) = (es.foldlM Config.add c).map (·.put b) ∧
      ∀ d, es.foldlM Config.add c = .ok d → d.Has a := by
  induction es generalizing c with
  | nil => exact ⟨rfl, fun d hd => Except.ok.inj hd ▸ hc⟩
  | cons e es ih =>
    rw [List.foldlM_cons, List.foldlM_cons, add_put h hc]
    cases he : c.add e with
    | error f => exact ⟨rfl, fun _ hd => (by cases hd)⟩
    | ok c' => exact ih (hc.add h he)

/-- One entry in the place of another sets its own value, and changes nothing else. -/
theorem ofEntries_put (h : b.Encloses a) (before after : List Entry) :
    ofEntries (before ++ b :: after) = (ofEntries (before ++ a :: after)).map (·.put b) ∧
      ∀ d, ofEntries (before ++ a :: after) = .ok d → d.Has a := by
  have hsplit (e : Entry) : ofEntries (before ++ e :: after) =
      (ofEntries before).bind fun c => (c.add e).bind fun c' => after.foldlM Config.add c' := by
    rw [ofEntries, List.foldlM_append]
    rfl
  rw [hsplit, hsplit]
  cases ofEntries before with
  | error f => exact ⟨rfl, fun _ hd => (by cases hd)⟩
  | ok c =>
    simp only [Except.bind, add_enclosing h]
    cases ha : c.add a with
    | error f => exact ⟨rfl, fun _ hd => (by cases hd)⟩
    | ok c' => exact foldlM_put h (has_of_add h ha) after

end Config

/-! ### The use of slots -/

/-- The slot of a key has to be filled, whatever stands around the type that the key declares. -/
def Entry.IsRequired : Entry → Prop
  | .pathParams t => ∀ u, ¬ t.IsOptionOf u
  | .queryParams t => t ≠ .unit ∧ ∀ u, ¬ t.IsOptionOf u
  | .data t => t ≠ .unit ∧ ∀ u, ¬ t.IsOptionOf u
  | _ => False

/-- Two declarations are accepted with the same use of each slot, or refused for the same reason. -/
inductive SameUse : Except DeclarationFault Implementation →
    Except DeclarationFault Implementation → Prop
  | accepted {x y : Implementation} (hp : y.pathParams.kind = x.pathParams.kind)
      (hq : y.queryParams.kind = x.queryParams.kind) (hd : y.data.kind = x.data.kind) :
      SameUse (.ok x) (.ok y)
  | refused (f : DeclarationFault) : SameUse (.error f) (.error f)

/-- What a declaration makes of an entry, and of the same entry in parentheses: a slot has to be
filled then, and a closure is refused. -/
inductive Parenthesized (x : Implementation) :
    Entry → Entry → Except DeclarationFault Implementation → Prop
  | pathParams {e : Expr} {t : Ty} (hx : x.url = .ofFunction e (some t)) (u : Ty) :
      Parenthesized x (.pathParams t) (.pathParams u) (.ok { x with url := .builder e u })
  | queryParams {t : Ty} (hx : x.queryParams = .ofDeclared (some t)) (u : Ty) :
      Parenthesized x (.queryParams t) (.queryParams u) (.ok { x with queryParams := .required u })
  | data {t : Ty} (hx : x.data = .ofDeclared (some t)) (u : Ty) :
      Parenthesized x (.data t) (.data u) (.ok { x with data := .required u })
  | closure (e e' : Expr) : Parenthesized x (.url e) (.url e') (.error .closureParameter)

theorem kind_ofDeclared_eq_required_iff {t : Ty} :
    (Marker.ofDeclared (some t)).kind = .required ↔ t ≠ .unit ∧ ∀ u, ¬ t.IsOptionOf u := by
  rw [← Ty.optionArgument?_eq_none_iff]
  cases t with
  | unit => simp [Marker.ofDeclared, Marker.kind]
  | _ =>
    rw [Marker.ofDeclared]
    · split <;> simp [Marker.kind, *]
    · nofun

theorem kind_ofFunction_eq_required_iff {e : Expr} {t : Ty} :
    (Marker.ofUrl (.ofFunction e (some t))).kind = .required ↔ ∀ u, ¬ t.IsOptionOf u := by
  rw [← Ty.optionArgument?_eq_none_iff, UrlForm.ofFunction]
  cases t.optionArgument? <;> simp [Marker.ofUrl, Marker.kind]

/-- Any two types may stand for each other in the path parameters of a function. -/
theorem classify_some (e : Expr) (t u : Ty) :
    UrlForm.classify e (some u) =
      (UrlForm.classify e (some t)).map fun _ => .ofFunction e (some u) := by
  unfold UrlForm.classify
  cases e.form <;> rfl

theorem eq_of_classify_some {e : Expr} {t : Ty} {form : UrlForm}
    (h : UrlForm.classify e (some t) = .ok form) : form = .ofFunction e (some t) := by
  have hform := classify_some e t t
  rw [h] at hform
  exact Except.ok.inj hform

/-- A closure with one parameter of a given type is refused for that type alone. -/
theorem ofClosure_cases (e : Expr) (t : Ty) :
    (∃ form, UrlForm.ofClosure e [some t] = .ok form) ∨
      UrlForm.ofClosure e [some t] = .error .closureParameter := by
  unfold UrlForm.ofClosure
  cases t with
  | reference marks t => exact .inl ⟨_, rfl⟩
  | _ =>
    dsimp only
    split
    · exact .inl ⟨_, rfl⟩
    · exact .inr rfl

theorem ofClosure_arity (e : Expr) (p : Option Ty) {ps qs : List (Option Ty)}
    (h : ps ≠ [] ∨ qs ≠ []) : UrlForm.ofClosure e (ps ++ p :: qs) = .error .closureArity := by
  match ps, qs, h with
  | _ :: _ :: _, _, _ => rfl
  | [_], _, _ => rfl
  | [], _ :: _, _ => cases p <;> rfl

/-- A closure with a type in parentheses is refused, for the reason for which it is refused without
them if it is. -/
theorem classify_closure {u t : Ty} {e' e : Expr} {ps qs : List (Option Ty)} (h : u.Encloses t)
    (he' : e'.form = .closure (ps ++ some u :: qs)) (he : e.form = .closure (ps ++ some t :: qs))
    (params : Option Ty) :
    (∀ f, UrlForm.classify e params = .error f → UrlForm.classify e' params = .error f) ∧
      ∀ form, UrlForm.classify e params = .ok form →
        UrlForm.classify e' params = .error .closureParameter := by
  obtain ⟨v, rfl⟩ := h.exists_paren
  simp only [UrlForm.classify, he, he']
  by_cases hp : params.isSome = true
  · simp only [if_pos hp]
    exact ⟨fun f hf => hf, fun form hform => (by cases hform)⟩
  simp only [if_neg hp]
  -- with any other number of parameters the types are not looked at
  by_cases hone : ps = [] ∧ qs = []
  · obtain ⟨rfl, rfl⟩ := hone
    refine ⟨fun f hf => ?_, fun _ _ => rfl⟩
    rcases ofClosure_cases e t with ⟨form, hform⟩ | herror
    · cases hform.symm.trans hf
    · cases herror.symm.trans hf
      rfl
  · have harity : ps ≠ [] ∨ qs ≠ [] := by
      rcases ps with _ | ⟨p, ps⟩
      · exact .inr fun hq => hone ⟨rfl, hq⟩
      · exact .inl (List.cons_ne_nil _ _)
    rw [ofClosure_arity e _ harity, ofClosure_arity e' _ harity]
    exact ⟨fun f hf => hf, fun form hform => (by cases hform)⟩

/-! ### Declarations -/

section Declarations

variable {c : Config} {a b : Entry}

/-- The types of the query parameters and of the body have no part in what else a route is. -/
theorem implementation_withTypes (c : Config) (query data : Option Ty) (n : String) :
    let c' : Config := { c with queryParams := query, data := data }
    (∀ f, c.implementation n = .error f → c'.implementation n = .error f) ∧
      ∀ x, c.implementation n = .ok x →
        x.queryParams = .ofDeclared c.queryParams ∧ x.data = .ofDeclared c.data ∧
          c'.implementation n =
            .ok { x with queryParams := .ofDeclared query, data := .ofDeclared data } := by
  simp only [Config.implementation]
  split
  · next name method url response _ _ _ _ =>
    cases UrlForm.classify url c.pathParams with
    | error f => exact ⟨fun _ hf => hf, fun _ hx => (by cases hx)⟩
    | ok form =>
      refine ⟨fun _ hf => (by cases hf), fun x hx => ?_⟩
      cases hx
      exact ⟨rfl, rfl, rfl⟩
  · exact ⟨fun _ hf => hf, fun _ hx => (by cases hx)⟩

/-- The type of the path parameters has a part in their slot alone. -/
theorem implementation_withPathParams {t : Ty} (hc : c.pathParams = some t) (u : Ty) (n : String) :
    let c' : Config := { c with pathParams := some u }
    (∀ f, c.implementation n = .error f → c'.implementation n = .error f) ∧
      ∀ x, c.implementation n = .ok x → ∃ e, x.url = .ofFunction e (some t) ∧
        c'.implementation n = .ok { x with url := .ofFunction e (some u) } := by
  simp only [Config.implementation, hc, classify_some _ t u]
  split
  · next name method url response _ _ _ _ =>
    cases hform : UrlForm.classify url (some t) with
    | error f => exact ⟨fun _ hf => hf, fun _ hx => (by cases hx)⟩
    | ok form =>
      refine ⟨fun _ hf => (by cases hf), fun x hx => ?_⟩
      cases hx
      exact ⟨url, eq_of_classify_some hform, rfl⟩
  · exact ⟨fun _ hf => hf, fun _ hx => (by cases hx)⟩

/-- Keys make no route with a URL that is refused: for the same reason if they make none anyway, and
otherwise for that of the URL. -/
theorem implementation_withUrl {e e' : Expr} {g : DeclarationFault} (hc : c.url = some e)
    (herror : ∀ f, UrlForm.classify e c.pathParams = .error f →
      UrlForm.classify e' c.pathParams = .error f)
    (hok : ∀ form, UrlForm.classify e c.pathParams = .ok form →
      UrlForm.classify e' c.pathParams = .error g) (n : String) :
    let c' : Config := { c with url := some e' }
    (∀ f, c.implementation n = .error f → c'.implementation n = .error f) ∧
      ∀ x, c.implementation n = .ok x → c'.implementation n = .error g := by
  have hmissing : ({ c with url := some e' } : Config).missing = c.missing := by
    simp only [Config.missing, hc, Option.isNone_some]
  simp only [Config.implementation, hc]
  split
  · next name method _ response hname hmethod hurl hresponse =>
    cases hurl
    simp only [hname, hmethod, hresponse]
    cases hform : UrlForm.classify e c.pathParams with
    | error f =>
      rw [herror f hform]
      exact ⟨fun _ hf => hf, fun _ hx => (by cases hx)⟩
    | ok form =>
      rw [hok form hform]
      exact ⟨fun _ hf => (by cases hf), fun _ _ => rfl⟩
  -- a key other than the URL is missing
  · next hno =>
    refine ⟨fun f hf => ?_, fun _ hx => (by cases hx)⟩
    split
    · next name method _ response hname hmethod _ hresponse =>
      exact (hno name method e response hname hmethod rfl hresponse).elim
    · rw [hmissing]
      exact hf

/-- Keys that make no route make none with an entry in parentheses, and keys that make one make what
parentheses leave of it. -/
theorem implementation_put (h : b.Encloses a) (hc : c.Has a) (n : String) :
    (∀ f, c.implementation n = .error f → (c.put b).implementation n = .error f) ∧
      ∀ x, c.implementation n = .ok x → Parenthesized x a b ((c.put b).implementation n) := by
  cases h with
  | @queryParams u t h =>
    obtain ⟨v, rfl⟩ := h.exists_paren
    obtain ⟨herror, hok⟩ := implementation_withTypes c (some (.paren v)) c.data n
    refine ⟨herror, fun x hx => ?_⟩
    obtain ⟨hquery, hdata, hput⟩ := hok x hx
    rw [put, hput, ← hdata]
    exact .queryParams (hquery.trans (congrArg Marker.ofDeclared hc)) _
  | @data u t h =>
    obtain ⟨v, rfl⟩ := h.exists_paren
    obtain ⟨herror, hok⟩ := implementation_withTypes c c.queryParams (some (.paren v)) n
    refine ⟨herror, fun x hx => ?_⟩
    obtain ⟨hquery, hdata, hput⟩ := hok x hx
    rw [put, hput, ← hquery]
    exact .data (hdata.trans (congrArg Marker.ofDeclared hc)) _
  | @pathParams u t h =>
    obtain ⟨v, rfl⟩ := h.exists_paren
    obtain ⟨herror, hok⟩ := implementation_withPathParams hc (.paren v) n
    refine ⟨herror, fun x hx => ?_⟩
    obtain ⟨e, hform, hput⟩ := hok x hx
    rw [put, hput]
    exact .pathParams hform _
  | @closure u t e' e ps qs h he' he =>
    obtain ⟨hrefused, haccepted⟩ := classify_closure h he' he c.pathParams
    obtain ⟨herror, hok⟩ := implementation_withUrl hc hrefused haccepted n
    refine ⟨herror, fun x hx => ?_⟩
    rw [put, hok x hx]
    exact .closure e e'

theorem Item.derive_eq [Grammar] (i : Item) : i.derive =
    match i.fault? with
    | some f => .error f
    | none => (ofEntries i.entries).bind fun c => c.implementation i.name := by
  rw [Item.derive]
  cases i.fault? <;> rfl

/-- What is refused is refused with an entry in parentheses, and what is accepted makes what
parentheses leave of it. -/
theorem derive_enclosing [Grammar] {i j : Item} {before after : List Entry}
    (hij : j = { i with attributes := j.attributes }) (hi : i.entries = before ++ a :: after)
    (hj : j.entries = before ++ b :: after) (h : b.Encloses a) :
    (∀ f, i.derive = .error f → j.derive = .error f) ∧
      ∀ x, i.derive = .ok x → Parenthesized x a b j.derive := by
  have hfault : j.fault? = i.fault? := by rw [hij]; rfl
  have hname : j.name = i.name := by rw [hij]
  obtain ⟨hput, hhas⟩ := ofEntries_put h before after
  rw [Item.derive_eq i, Item.derive_eq j, hfault, hname, hi, hj, hput]
  cases i.fault? with
  | some f => exact ⟨fun _ hf => hf, fun _ hx => (by cases hx)⟩
  | none =>
    cases hc : ofEntries (before ++ a :: after) with
    | error f => exact ⟨fun _ hf => hf, fun _ hx => (by cases hx)⟩
    | ok c => exact implementation_put h (hhas c hc) i.name

theorem sameUse_ok_iff {x y : Implementation} :
    SameUse (.ok x) (.ok y) ↔ y.pathParams.kind = x.pathParams.kind ∧
      y.queryParams.kind = x.queryParams.kind ∧ y.data.kind = x.data.kind :=
  ⟨fun | .accepted hp hq hd => ⟨hp, hq, hd⟩, fun ⟨hp, hq, hd⟩ => .accepted hp hq hd⟩

/-- A slot is used alike with parentheses and without them if it has to be filled anyway. -/
theorem Parenthesized.sameUse_iff_isRequired {x : Implementation}
    {r : Except DeclarationFault Implementation} (h : Parenthesized x a b r) :
    SameUse (.ok x) r ↔ a.IsRequired := by
  cases h with
  | @pathParams e t hx u =>
    have hkind : x.pathParams.kind = .required ↔ (Entry.pathParams t).IsRequired := by
      rw [Implementation.pathParams, hx]
      exact kind_ofFunction_eq_required_iff
    rw [sameUse_ok_iff, ← hkind]
    exact ⟨fun h => h.1.symm, fun hp => ⟨hp.symm, rfl, rfl⟩⟩
  | @queryParams t hx u =>
    have hkind : x.queryParams.kind = .required ↔ (Entry.queryParams t).IsRequired := by
      rw [hx]
      exact kind_ofDeclared_eq_required_iff
    rw [sameUse_ok_iff, ← hkind]
    exact ⟨fun h => h.2.1.symm, fun hq => ⟨rfl, hq.symm, rfl⟩⟩
  | @data t hx u =>
    have hkind : x.data.kind = .required ↔ (Entry.data t).IsRequired := by
      rw [hx]
      exact kind_ofDeclared_eq_required_iff
    rw [sameUse_ok_iff, ← hkind]
    exact ⟨fun h => h.2.2.symm, fun hd => ⟨rfl, rfl, hd.symm⟩⟩
  | closure e e' => exact ⟨fun h => (by cases h), False.elim⟩

/-- **When parentheses make no difference.** Of two declarations of one item, let the entries be the
same but for parentheses around a type in one entry of the second. They are refused for the same
reason, or use each slot alike, exactly if the first is refused or the slot of that type has to be
filled anyway. What is accepted otherwise has to have the slot filled in the second, whatever it is
in the first, and a closure that takes the type is refused there. In the standard grammar a group of
tokens is a type in parentheses wherever its content is that type and no bound is added to it. -/
theorem sameUse_iff [Grammar] {ts us : List Token} {i j : Item} {before after : List Entry}
    (hts : Grammar.item ts = .ok i) (hus : Grammar.item us = .ok j)
    (hij : j = { i with attributes := j.attributes }) (hi : i.entries = before ++ a :: after)
    (hj : j.entries = before ++ b :: after) (h : b.Encloses a) :
    (SameUse (derive ts) (derive us) ↔ (∃ f, derive ts = .error f) ∨ a.IsRequired) ∧
      (∀ f, derive ts = .error f → derive us = .error f) ∧
      (∀ x, derive ts = .ok x → Parenthesized x a b (derive us)) ∧
      ∀ content rest t, @IsTy standard (.group .parenthesis content :: rest) (.paren t) rest ↔
        @IsTy standard content t [] ∧ (t.isBound && startsWithMark '+' rest) = false := by
  obtain ⟨herror, hok⟩ := derive_enclosing hij hi hj h
  rw [derive_of_item hts, derive_of_item hus]
  refine ⟨?_, herror, hok, fun content rest t => isTy_group_iff⟩
  cases hx : i.derive with
  | error f =>
    rw [herror f hx]
    exact ⟨fun _ => .inl ⟨f, rfl⟩, fun _ => .refused f⟩
  | ok x =>
    rw [(hok x hx).sameUse_iff_isRequired]
    exact ⟨.inr, fun hor => hor.resolve_left fun ⟨f, hf⟩ => by cases hf⟩

end Declarations

namespace ListUsers

/-! The route that lists users, with each key in an attribute of its own: with one more key, or with
a closure as its URL. -/

/-- A route attribute with one key. -/
def single (key : List Token) : Attribute := ⟨⟨false, ["route"]⟩, .list key⟩

/-- The keys give these entries, one each. -/
def Give : List (List Token) → List Entry → Prop := List.Forall₂ fun k e => KeyEntry k e []

theorem Give.entries_eq {ks : List (List Token)} {es : List Entry} (h : Give ks es) :
    (item (ks.map single)).entries = es := by
  refine (Item.lists_iff.1 ?_).1
  show InTurn Attribute.Lists (ks.map single) es
  induction h with
  | nil => exact .nil
  | @cons k e _ _ h _ ih =>
    have hk : (single k).Lists [e] := .keys rfl rfl (.last (.value h))
    exact .cons hk ih

theorem Give.derive_eq {ks : List (List Token)} {es : List Entry} (h : Give ks es)
    (hi : Grammar.item (tokens (ks.map single)) = .ok (item (ks.map single))) :
    derive (tokens (ks.map single)) =
      (ofEntries es).bind fun c => c.implementation "ListUsers" := by
  rw [derive_of_item hi, Item.derive_eq, h.entries_eq]
  rfl

/-- The entries of the keys but the URL. -/
def others : List Entry :=
  [.name ⟨"GET users", .literal "\"GET users\"" (.text "GET users")⟩, .method "Get",
    .response "csv" none]

theorem give_others : Give [name, method, response] others :=
  .cons (.name false _ _ []) (.cons (.method false [] rfl) (.cons (.response false rfl rfl) .nil))

/-- The entry of the URL. -/
def urlEntry : Entry :=
  .url ⟨.text ⟨"users", .literal "\"users\"" (.text "users")⟩,
    [.literal "\"users\"" (.text "users")]⟩

theorem keyEntry_url : KeyEntry url urlEntry [] := .url false rfl

/-- Tokens in parentheses. -/
def grouped (ts : List Token) : List Token := [.group .parenthesis ts]

/-- The type `Page`. -/
def page : Ty := .path false [] "Page" none

theorem isTy_page : IsTy [.word "Page"] page [] := rfl

/-- The type `Option<Page>`. -/
def optionalPage : Ty :=
  .path false [] "Option" (some ⟨[.mark '<' false], [.type page], [], .mark '>' false⟩)

def optionalTokens : List Token := [.word "Option", .mark '<' false, .word "Page", .mark '>' false]

theorem isTy_optionalPage : IsTy optionalTokens optionalPage [] := rfl

/-- The type `&Page`. -/
def reference : Ty := .reference [.mark '&' false] page

def referenceTokens : List Token := [.mark '&' false, .word "Page"]

/-- The closure whose parameter has a type of the given tokens. -/
def closure (type : List Token) : List Token :=
  [.mark '|' false, .word "p", .mark ':' false] ++ type ++
    [.mark '|' false, .word "users", .group .parenthesis [.word "p"]]

theorem isExpr_closure :
    IsExpr (closure referenceTokens) ⟨.closure [some reference], closure referenceTokens⟩ [] :=
  rfl

theorem isExpr_grouped : IsExpr (closure (grouped referenceTokens))
    ⟨.closure [some (.paren reference)], closure (grouped referenceTokens)⟩ [] :=
  rfl

/-- The tokens with the URL and a type for the query parameters. -/
def queried (type : List Token) : List Token :=
  tokens (([name, method, response] ++ [url, .word "query_params" :: .mark '=' false :: type]).map
    single)

/-- The tokens with a URL by a closure. -/
def computed (type : List Token) : List Token :=
  tokens (([name, method, response] ++ [.word "url" :: .mark '=' false :: closure type]).map single)

theorem give_queried {type : List Token} {t : Ty} (h : IsTy type t []) :
    Give ([name, method, response] ++ [url, .word "query_params" :: .mark '=' false :: type])
      ((others ++ [urlEntry]) ++ .queryParams t :: []) := by
  rw [List.append_assoc]
  exact List.rel_append give_others (.cons keyEntry_url (.cons (.queryParams false h) .nil))

theorem give_computed {type : List Token} {e : Expr} (h : IsExpr (closure type) e []) :
    Give ([name, method, response] ++ [.word "url" :: .mark '=' false :: closure type])
      (others ++ .url e :: []) :=
  List.rel_append give_others (.cons (.url false h) .nil)

/-- Query parameters that have to be given have to be given with two pairs of parentheses around
their type. -/
theorem sameUse_iff_page :
    derive (queried [.word "Page"]) =
        .ok { implementation [] with queryParams := .required page } ∧
      SameUse (derive (queried [.word "Page"]))
        (derive (queried (grouped (grouped [.word "Page"])))) := by
  have hpage := give_queried isTy_page
  have honce : IsTy (grouped [.word "Page"]) (.paren page) [] :=
    isTy_group_iff.2 ⟨isTy_page, rfl⟩
  have hgrouped := give_queried (isTy_group_iff.2 ⟨honce, rfl⟩)
  have hrequired : (Entry.queryParams page).IsRequired :=
    ⟨nofun, Ty.optionArgument?_eq_none_iff.1 rfl⟩
  refine ⟨hpage.derive_eq rfl, ?_⟩
  exact (sameUse_iff rfl rfl rfl hpage.entries_eq hgrouped.entries_eq
    (.queryParams (.more (.once page)))).1.2 (.inr hrequired)

/-- Query parameters that may be left out have to be given with parentheses around their type, and a
closure that is accepted is refused with parentheses around the type of its parameter. -/
theorem parentheses_counted :
    ((Ty.paren optionalPage).bare = optionalPage.bare ∧
        derive (queried optionalTokens) =
          .ok { implementation [] with queryParams := .optional page } ∧
        derive (queried (grouped optionalTokens)) =
          .ok { implementation [] with queryParams := .required (.paren optionalPage) } ∧
        ¬ SameUse (derive (queried optionalTokens)) (derive (queried (grouped optionalTokens)))) ∧
      (Ty.paren reference).bare = reference.bare ∧
        (∃ x, derive (computed referenceTokens) = .ok x ∧ x.pathParams = .required page) ∧
        derive (computed (grouped referenceTokens)) = .error .closureParameter ∧
        ¬ SameUse (derive (computed referenceTokens))
          (derive (computed (grouped referenceTokens))) := by
  have hoptional := (give_queried isTy_optionalPage).derive_eq rfl
  have hgrouped := (give_queried (isTy_group_iff.2 ⟨isTy_optionalPage, rfl⟩)).derive_eq rfl
  have hclosure := (give_computed isExpr_closure).derive_eq rfl
  have hrefused := (give_computed isExpr_grouped).derive_eq rfl
  refine ⟨⟨(Ty.Encloses.once _).bare_eq, hoptional, hgrouped, fun h => ?_⟩,
    (Ty.Encloses.once _).bare_eq, ⟨_, hclosure, rfl⟩, hrefused, fun h => ?_⟩
  · rw [queried, hoptional, queried, grouped, hgrouped] at h
    exact nomatch (sameUse_ok_iff.1 h).2.1
  · rw [computed, hclosure, computed, hrefused] at h
    exact nomatch h

end ListUsers
end RestDispatch.Declaration
