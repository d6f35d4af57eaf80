import RestDispatch.Proofs.Declaration.Extension
import RestDispatch.Proofs.Declaration.Written

/-!
# Types before more tokens

The readers of types are steady: what they read is the same whatever stands behind the comma after
it, and however many steps they may take, if these are enough for the tokens. Every reader gets a
rank, a number above the ranks of the readers that it calls before it reads a token; the steps of a
reading are then at most eight for each token, and the rank.
-/

namespace RestDispatch.Declaration

open Token Reader

section Heads

variable {ts tail : List Token}

theorem continuesPath_append (ht : Trailing tail) :
    continuesPath (ts ++ tail) = continuesPath ts := by
  rw [continuesPath, continuesPath, startsWithPair_append rfl rfl ht]
  cases hp : startsWithPair ':' ':' ts with
  | false => rfl
  | true =>
    rw [startsWithGroup, startsWith_drop_append (length_of_startsWithPair hp) (fun _ => rfl) ht]

theorem length_of_continuesPath (h : continuesPath ts = true) : 2 ≤ ts.length := by
  rw [continuesPath, Bool.and_eq_true] at h
  exact length_of_startsWithPair h.1

theorem argumentsOpening?_append (inExpr : Bool) (ht : Trailing tail) :
    argumentsOpening? inExpr (ts ++ tail) = argumentsOpening? inExpr ts := by
  rw [argumentsOpening?, argumentsOpening?, startsWithPair_append rfl rfl ht, startsWithMark,
    startsWith_append (fun _ => rfl) ht, startsWithPair_append rfl rfl ht]
  cases hp : startsWithPair ':' ':' ts with
  | false => rfl
  | true =>
    rw [startsWith_drop_append (length_of_startsWithPair hp) (fun _ => rfl) ht]

theorem length_of_argumentsOpening? {inExpr : Bool} {n : Nat}
    (h : argumentsOpening? inExpr ts = some n) : 1 ≤ n ∧ n ≤ ts.length := by
  rw [argumentsOpening?] at h
  split at h
  · next hp =>
    rw [Bool.and_eq_true] at hp
    have hl := length_of_startsWith hp.2
    rw [List.length_drop] at hl
    cases h
    omega
  · split at h
    · next hp =>
      rw [Bool.and_eq_true, Bool.and_eq_true] at hp
      cases h
      exact ⟨Nat.le_refl _, length_of_startsWith hp.1.2⟩
    · cases h

theorem startsWithConstant_append (ht : Trailing tail) :
    startsWithConstant (ts ++ tail) = startsWithConstant ts := by
  rw [startsWithConstant, startsWithConstant, startsWithMark, startsWith_append (fun _ => rfl) ht,
    startsWith_append (fun _ => rfl) ht]

theorem length_of_eitherPair {a b c d : Char}
    (h : (startsWithPair a b ts || startsWithPair c d ts) = true) : 2 ≤ ts.length := by
  rw [Bool.or_eq_true] at h
  exact h.elim length_of_startsWithPair length_of_startsWithPair

theorem operatorLength?_append (ht : Trailing tail) :
    operatorLength? (ts ++ tail) = operatorLength? ts := by
  have hp : ∀ c d, (',' == c) = false → (',' == d) = false →
      startsWithPair c d (ts ++ tail) = startsWithPair c d ts :=
    fun c d hc hd => startsWithPair_append hc hd ht
  have hm : ∀ c, (',' == c) = false → startsWithMark c (ts ++ tail) = startsWithMark c ts :=
    fun c hc => startsWith_append (fun _ => hc) ht
  have hd : (startsWithPair '<' '<' ts || startsWithPair '>' '>' ts) = true → ∀ c d,
      (',' == c) = false → (',' == d) = false →
        startsWithPair c d ((ts ++ tail).drop 1) = startsWithPair c d (ts.drop 1) := by
    intro hs c d hc hd
    have hl := length_of_eitherPair hs
    rw [List.drop_append_of_le_length (by omega), startsWithPair_append hc hd ht]
  simp (disch := decide) only [operatorLength?, equatedMarks, operatorMarks, List.any_cons,
    List.any_nil, hp, hm]
  split
  · rfl
  · split
    · next hs => rw [hd hs _ _ rfl rfl, hd hs _ _ rfl rfl]
    · rfl

theorem length_of_operatorLength? {n : Nat} (h : operatorLength? ts = some n) :
    1 ≤ n ∧ n ≤ ts.length := by
  rw [operatorLength?] at h
  split at h
  · cases h
  split at h
  · next hs =>
    have hl := length_of_eitherPair hs
    split at h
    · next hd =>
      have hl' := length_of_eitherPair hd
      rw [List.length_drop] at hl'
      cases h
      omega
    · cases h
      omega
  split at h
  · next hs =>
    have hl := length_of_eitherPair hs
    cases h
    omega
  split at h
  · next hs =>
    obtain ⟨c, -, hc⟩ := List.any_eq_true.1 hs
    have hl := length_of_startsWithPair hc
    cases h
    omega
  split at h
  · next hs =>
    obtain ⟨c, -, hc⟩ := List.any_eq_true.1 hs
    have hl := length_of_startsWith hc
    cases h
    omega
  · cases h

end Heads

/-! ### Words of paths -/

theorem Agrees.segmentWord {tail ts : List Token} :
    Extends tail 1 ts segmentWord segmentWord := by
  refine of_reads_one (fun t a => t = .word a ∧ (pathWords.contains a || isName a) = true) ?_
  intro ts s a c'
  rw [run_segmentWord_eq_ok]
  constructor
  · rintro ⟨rest, rfl, ha, rfl⟩
    exact ⟨_, rest, rfl, ⟨rfl, ha⟩, rfl⟩
  · rintro ⟨_, rest, rfl, ⟨rfl, ha⟩, rfl⟩
    exact ⟨rest, rfl, ha, rfl⟩

/-! ### Types -/

namespace Agrees

variable {tail ts : List Token}

theorem lifetime (ht : Trailing tail) : Extends tail 1 ts skipLifetime skipLifetime :=
  peek <| ite (startsWith_append (fun _ => rfl) ht) advance_one fun _ => refuse _

theorem doubleColon (ht : Trailing tail) : Extends tail 0 ts skipDoubleColon skipDoubleColon :=
  peek <| ite (startsWithPair_append rfl rfl ht)
    (fun hc => (advance (length_of_startsWithPair hc)).mono (by omega)) fun _ => pure ()

theorem label : Extends [] 0 ts skipLabel skipLabel := by
  refine peek (ite (by rw [List.append_nil]) (fun hc => ?_) fun _ => pure ())
  rw [startsWithLabel, Bool.and_eq_true] at hc
  exact (advance (length_of_startsWithEach hc.1)).mono (by omega)

theorem linkage (ht : Trailing tail) : Extends tail 0 ts skipLinkage skipLinkage := by
  refine peek (ite (startsWith_append (fun _ => rfl) ht) (fun hc => ?_) fun _ => pure ())
  exact bind (advance_one hc) fun _ _ _ => skipIf (fun _ => rfl) ht

theorem referenceMarks (ht : Trailing tail) :
    Extends tail 1 ts readReferenceMarks readReferenceMarks := by
  refine bind (mark '&') fun _ _ _ => ?_
  exact bind (skipIf (fun _ => rfl) ht) fun _ _ _ => skipIf (fun _ => rfl) ht

theorem other {α : Type} {k : Nat} {p q : Reader α} (h : Extends tail k ts p q) :
    Extends tail k ts (readOther p) (readOther q) := by
  refine bind (consumed h) fun _ _ _ => ?_
  rw [Nat.sub_self]
  exact pure _

theorem pointerMarks (ht : Trailing tail) :
    Extends tail 1 ts readPointerMarks readPointerMarks := by
  refine bind (mark '*') fun _ _ _ => peek ?_
  refine ite (startsWith_append (fun _ => rfl) ht) (fun hc => ?_) fun _ => refuse _
  exact (advance_one hc).mono (by omega)

end Agrees

/-! ### Lifetimes -/

section Lifetimes

variable {tail : List Token}

theorem steady_readOutlived (ht : Trailing tail) (n : Nat) : Steady tail 1 0 readOutlived n := by
  induction n with
  | zero => exact .zero rfl
  | succ n ih =>
    refine .succ (by omega) fun ts m hm => .peek ?_
    refine .ite (startsWith_append (fun _ => rfl) ht) (fun hc => ?_) fun _ => .pure ()
    refine .bind (.advance_one hc) fun _ r₁ h₁ => .peek ?_
    refine .ite (startsWith_append (fun _ => rfl) ht) (fun hp => ?_) fun _ => .pure ()
    exact .bind (.advance_one hp) fun _ r₂ h₂ => (ih _ _ (by omega)).mono (by omega)

theorem steady_readLifetimeBounds (ht : Trailing tail) (n : Nat) :
    Steady tail 1 0 readLifetimeBounds n := by
  refine fun ts m hm =>
    .peek (.ite (startsWith_append (fun _ => rfl) ht) (fun hc => ?_) fun _ => ?_)
  · exact .bind (.advance_one hc) fun _ r hr => steady_readOutlived ht n _ _ (by omega)
  · exact .pure ()

theorem steady_readLifetimes (ht : Trailing tail) (n : Nat) : Steady tail 1 1 readLifetimes n := by
  induction n with
  | zero => exact .zero rfl
  | succ n ih =>
    refine .succ (by omega) fun ts m hm => .peek ?_
    refine .ite (startsWith_append (fun _ => rfl) ht) .advance_one fun _ => ?_
    refine .bind (.lifetime ht) fun _ r₁ h₁ => ?_
    refine .bind (steady_readLifetimeBounds ht n _ _ (by omega)) fun _ r₂ h₂ => .peek ?_
    refine .ite (startsWith_append (fun _ => rfl) ht) (fun hc => ?_) fun _ => ?_
    · exact (Agrees.advance_one hc).mono (by omega)
    · exact .bind (.mark ',') fun _ r₃ h₃ => (ih _ _ (by omega)).mono (by omega)

theorem steady_readFor (ht : Trailing tail) (n : Nat) : Steady tail 0 1 readFor n := by
  refine fun ts m hm => .bind (.skipWord "for") fun _ r₁ h₁ => .bind (.mark '<') fun _ r₂ h₂ => ?_
  exact (steady_readLifetimes ht n _ _ (by omega)).mono (by omega)

theorem steady_readBinder (ht : Trailing tail) (n : Nat) : Steady tail 0 0 readBinder n := by
  refine fun ts m hm => .peek (.ite (startsWith_append (fun _ => rfl) ht) (fun _ => ?_) fun _ => ?_)
  · exact (steady_readFor ht n _ _ hm).mono (by omega)
  · exact .pure ()

end Lifetimes

/-- The readers of types are steady in `n` steps. -/
structure TySteady (n : Nat) : Prop where
  ty : ∀ {tail}, Trailing tail → ∀ plus, Steady tail 6 1 (readTy plus) n
  element : Steady [] 7 1 readElement n
  constant : Steady [] 5 1 readConstant n
  constantRest : Steady [] 1 0 readConstantRest n
  grouped : ∀ {tail}, Trailing tail → ∀ plus, Steady tail 5 1 (readGrouped plus) n
  content : Steady [] 7 1 readContent n
  tuple : Steady [] 1 0 readTuple n
  types : Steady [] 7 0 readTypes n
  further : ∀ {tail}, Trailing tail → ∀ plus t, Steady tail 1 0 (readFurther plus t) n
  function : ∀ {tail}, Trailing tail → Steady tail 5 1 readFunction n
  parameters : Steady [] 8 0 readParameters n
  parameter : Steady [] 7 1 readParameter n
  result : ∀ {tail}, Trailing tail → Steady tail 1 0 readResult n
  bounds : ∀ {tail}, Trailing tail → Steady tail 5 1 readBounds n
  soleBound : ∀ {tail}, Trailing tail → Steady tail 4 1 readSoleBound n
  bound : ∀ {tail}, Trailing tail → Steady tail 3 1 readBound n
  inputs : ∀ {tail}, Trailing tail → Steady tail 1 0 readInputs n
  pathTy : ∀ {tail}, Trailing tail → ∀ plus, Steady tail 5 1 (readPathTy plus) n
  extension : ∀ {tail}, Trailing tail → ∀ plus t, Steady tail 1 0 (readExtension plus t) n
  path : ∀ {tail}, Trailing tail → ∀ inExpr, Steady tail 4 1 (readPath inExpr) n
  qualifier : ∀ {tail}, Trailing tail → Steady tail 3 1 readQualifier n
  trait : ∀ {tail}, Trailing tail → Steady tail 1 0 readTrait n
  segments : ∀ {tail}, Trailing tail → ∀ inExpr qualified lead,
    Steady tail 2 1 (readSegments inExpr qualified lead) n
  arguments : ∀ {tail}, Trailing tail → ∀ inExpr, Steady tail 1 0 (readArguments inExpr) n
  items : ∀ {tail}, Trailing tail → Steady tail 8 0 readItems n
  argument : ∀ {tail}, Trailing tail → Steady tail 7 1 readArgument n
  binding : ∀ {tail}, Trailing tail → Steady tail 1 0 readBinding n
  assigned : ∀ {tail}, Trailing tail → Steady tail 7 1 readAssigned n

namespace TySteady

variable {tail : List Token} {n : Nat}

theorem readTy (h : TySteady n) (ht : Trailing tail) (plus : Bool) :
    Steady tail 6 1 (readTy plus) (n + 1) := by
  refine .succ (by omega) fun ts m hm => .peek ?_
  refine .ite (startsWith_append (fun _ => rfl) ht) (fun hc => ?_) fun _ => ?_
  · exact .bind (.advance_one hc) fun _ _ _ => .pure _
  refine .ite (startsWith_append (fun _ => rfl) ht) (fun _ => ?_) fun _ => ?_
  · exact h.grouped ht plus _ _ (by omega)
  refine .ite (startsWith_append (fun _ => rfl) ht) (fun _ => ?_) fun _ => ?_
  · refine .other (.mono (.within _ fun content hw => ?_) (by omega))
    exact (h.element _ _ (by omega)).mono (by omega)
  refine .ite (startsWith_append (fun _ => rfl) ht) (fun hc => ?_) fun _ => ?_
  · refine .bind (.consumed (.referenceMarks ht)) fun _ r hr => ?_
    exact .bind (h.ty ht false _ _ (by omega)) fun _ _ _ => .pure _
  refine .ite (startsWith_append (fun _ => rfl) ht) (fun hc => ?_) fun _ => ?_
  · refine .other (.bind (.pointerMarks ht) fun _ r hr => ?_)
    exact (h.ty ht false _ _ (by omega)).mono (by omega)
  refine .ite ?_ (fun hc => ?_) fun _ => ?_
  · rw [startsWithMark, startsWith_append (fun _ => rfl) ht, startsWithWord,
      startsWith_append (fun _ => rfl) ht]
  · rw [Bool.or_eq_true] at hc
    exact .other (.advance (hc.elim length_of_startsWith length_of_startsWith))
  refine .ite (startsWith_append (fun _ => rfl) ht) (fun _ => ?_) fun _ => ?_
  · exact .other (h.bounds ht _ _ (by omega))
  refine .ite ?_ (fun _ => ?_) fun _ => ?_
  · rw [startsWithMark, startsWith_append (fun _ => rfl) ht, startsWithPair_append rfl rfl ht]
  · exact h.pathTy ht plus _ _ (by omega)
  refine .ite (startsWith_append (fun _ => rfl) ht) (fun hc => ?_) fun _ => ?_
  · refine .other (.bind (.advance_one hc) fun _ r hr => ?_)
    exact (h.bounds ht _ _ (by omega)).mono (by omega)
  refine .ite (startsWith_append (fun _ => rfl) ht) (fun _ => ?_) fun _ => ?_
  · refine .other (.bind (steady_readFor ht n _ _ (by omega)) fun _ r hr => ?_)
    exact (h.ty ht plus _ _ (by omega)).mono (by omega)
  refine .ite (startsWith_append (fun _ => rfl) ht) (fun _ => ?_) fun _ => ?_
  · exact .other (h.function ht _ _ (by omega))
  refine .ite (startsWith_append (fun _ => rfl) ht) (fun _ => ?_) fun _ => .refuse _
  exact h.pathTy ht plus _ _ (by omega)

theorem readElement (h : TySteady n) : Steady [] 7 1 readElement (n + 1) := by
  refine .succ (by omega) fun ts m hm => ?_
  refine .bind (h.ty .nil true _ _ (by omega)) fun _ r _ => .peek ?_
  refine .ite (startsWith_append (fun _ => rfl) .nil) (fun hc => ?_) fun _ => .pure ()
  exact .bind (.advance_one hc) fun _ r₂ h₂ => (h.constant _ _ (by omega)).mono (by omega)

theorem readConstant (h : TySteady n) : Steady [] 5 1 readConstant (n + 1) := by
  refine .succ (by omega) fun ts m hm => .peek ?_
  refine .ite (startsWith_append (fun _ => rfl) .nil) (fun hc => ?_) fun _ => ?_
  · exact .bind (.advance_one hc) fun _ r hr => (h.constant _ _ (by omega)).mono (by omega)
  refine .ite (startsWith_append (fun _ => rfl) .nil) (fun _ => ?_) fun _ => ?_
  · exact .bind .literal fun _ r hr => h.constantRest _ _ (by omega)
  refine .ite (startsWith_append (fun _ => rfl) .nil) .advance_one fun _ => ?_
  refine .ite (startsWith_append (fun _ => rfl) .nil) (fun _ => ?_) fun _ => ?_
  · refine .bind (.within _ fun content hw => ?_) fun _ r hr => ?_
    · exact (h.constant _ _ (by omega)).mono (by omega)
    · exact (h.constantRest _ _ (by omega)).mono (by omega)
  · refine .bind (h.path .nil true _ _ (by omega)) fun _ r₁ h₁ => ?_
    refine .bind (.skipIf (fun _ => rfl) .nil) fun _ r₂ h₂ => ?_
    exact h.constantRest _ _ (by omega)

theorem readConstantRest (h : TySteady n) : Steady [] 1 0 readConstantRest (n + 1) := by
  refine .succ (by omega) fun ts m hm => .peek ?_
  refine .ite (startsWith_append (fun _ => rfl) .nil) (fun hc => ?_) fun _ => ?_
  · refine .bind (.advance_one hc) fun _ r₁ h₁ => ?_
    refine .bind (h.ty .nil false _ _ (by omega)) fun _ r₂ h₂ => ?_
    exact h.constantRest _ _ (by omega)
  rw [List.append_nil]
  cases ho : operatorLength? ts with
  | none => exact .pure ()
  | some i =>
    obtain ⟨hi, hl⟩ := length_of_operatorLength? ho
    exact .bind (.advance hl) fun _ r hr => (h.constant _ _ (by omega)).mono (by omega)

theorem readGrouped (h : TySteady n) (ht : Trailing tail) (plus : Bool) :
    Steady tail 5 1 (readGrouped plus) (n + 1) := by
  refine .succ (by omega) fun ts m hm => ?_
  refine .bind (k := 2) (.consumed ?_) fun x _ _ => ?_
  · refine .bind (.within _ fun content hw => ?_) fun t r hr => ?_
    · exact (h.content _ _ (by omega)).mono (by omega)
    · exact .bind (h.further ht plus t _ _ (by omega)) fun _ _ _ => .pure _
  · rcases x with ⟨⟨_ | t, more⟩, read⟩
    · exact .pure _
    · exact .pure _

theorem readContent (h : TySteady n) : Steady [] 7 1 readContent (n + 1) := by
  refine .succ (by omega) fun ts m hm => ?_
  refine .bind (h.ty .nil true _ _ (by omega)) fun _ r hr => .peek ?_
  refine .ite (by rw [List.append_nil]) (fun _ => ?_) fun _ => .pure _
  exact .bind (h.tuple _ _ (by omega)) fun _ _ _ => .pure _

theorem readTuple (h : TySteady n) : Steady [] 1 0 readTuple (n + 1) := by
  refine .succ (by omega) fun ts m hm => .peek ?_
  refine .ite (by rw [List.append_nil]) (fun _ => .pure ()) fun _ => ?_
  exact .bind (.mark ',') fun _ r hr => (h.types _ _ (by omega)).mono (by omega)

theorem readTypes (h : TySteady n) : Steady [] 7 0 readTypes (n + 1) := by
  refine .succ (by omega) fun ts m hm => .peek ?_
  refine .ite (by rw [List.append_nil]) (fun _ => .pure ()) fun _ => ?_
  exact .bind (h.ty .nil true _ _ (by omega)) fun _ r hr => h.tuple _ _ (by omega)

theorem readFurther (h : TySteady n) (ht : Trailing tail) (plus : Bool) (t : Option Ty) :
    Steady tail 1 0 (readFurther plus t) (n + 1) := by
  refine .succ (by omega) fun ts m hm => .peek ?_
  refine .ite ?_ (fun hc => ?_) fun _ => .pure _
  · rw [startsWithMark, startsWith_append (fun _ => rfl) ht]
  · rw [Bool.and_eq_true] at hc
    refine .bind (.advance_one hc.2) fun _ r hr => ?_
    exact .bind (h.bounds ht _ _ (by omega)) fun _ _ _ => .pure _

theorem readFunction (h : TySteady n) (ht : Trailing tail) :
    Steady tail 5 1 readFunction (n + 1) := by
  refine .succ (by omega) fun ts m hm => ?_
  refine .bind (.skipIf (fun _ => rfl) ht) fun _ r₁ h₁ => ?_
  refine .bind (.linkage ht) fun _ r₂ h₂ => ?_
  refine .bind (.skipWord "fn") fun _ r₃ h₃ => ?_
  refine .bind (.within _ fun content hw => ?_) fun _ r₄ h₄ => ?_
  · exact h.parameters _ _ (by omega)
  · exact (h.result ht _ _ (by omega)).mono (by omega)

theorem readParameters (h : TySteady n) : Steady [] 8 0 readParameters (n + 1) := by
  refine .succ (by omega) fun ts m hm => .peek ?_
  refine .ite (by rw [List.append_nil]) (fun _ => .pure ()) fun _ => ?_
  refine .bind .label fun _ r₁ h₁ => ?_
  refine .bind (h.parameter _ _ (by omega)) fun _ r₂ h₂ => .peek ?_
  refine .ite (by rw [List.append_nil]) (fun _ => .pure ()) fun _ => ?_
  exact .bind (.mark ',') fun _ r₃ h₃ => (h.parameters _ _ (by omega)).mono (by omega)

theorem readParameter (h : TySteady n) : Steady [] 7 1 readParameter (n + 1) := by
  refine .succ (by omega) fun ts m hm => .peek ?_
  refine .ite (startsWithPair_append rfl rfl .nil) (fun hc => ?_) fun _ => ?_
  · refine .bind (.advance (length_of_startsWithPair hc)) fun _ r hr => ?_
    exact (Agrees.mark '.').mono (by omega)
  · exact .bind (h.ty .nil true _ _ (by omega)) fun _ _ _ => .pure ()

theorem readResult (h : TySteady n) (ht : Trailing tail) : Steady tail 1 0 readResult (n + 1) := by
  refine .succ (by omega) fun ts m hm => .peek ?_
  refine .ite (startsWithPair_append rfl rfl ht) (fun hc => ?_) fun _ => .pure ()
  refine .bind (.advance (length_of_startsWithPair hc)) fun _ r hr => ?_
  exact .bind (h.ty ht false _ _ (by omega)) fun _ _ _ => .pure ()

theorem readBounds (h : TySteady n) (ht : Trailing tail) : Steady tail 5 1 readBounds (n + 1) := by
  refine .succ (by omega) fun ts m hm => ?_
  refine .bind (h.soleBound ht _ _ (by omega)) fun _ r₁ h₁ => .peek ?_
  refine .ite (startsWith_append (fun _ => rfl) ht) (fun hc => ?_) fun _ => .pure ()
  exact .bind (.advance_one hc) fun _ r₂ h₂ => (h.bounds ht _ _ (by omega)).mono (by omega)

theorem readSoleBound (h : TySteady n) (ht : Trailing tail) :
    Steady tail 4 1 readSoleBound (n + 1) := by
  refine .succ (by omega) fun ts m hm => ?_
  refine .bind (steady_readBinder ht n _ _ (by omega)) fun _ r₁ h₁ => ?_
  refine .bind (.skipIf (fun _ => rfl) ht) fun _ r₂ h₂ => ?_
  exact h.bound ht _ _ (by omega)

theorem readBound (h : TySteady n) (ht : Trailing tail) : Steady tail 3 1 readBound (n + 1) := by
  refine .succ (by omega) fun ts m hm => .peek ?_
  refine .ite (startsWith_append (fun _ => rfl) ht) .advance_one fun _ => ?_
  refine .ite (startsWith_append (fun _ => rfl) ht) (fun _ => ?_) fun _ => ?_
  · refine .mono (.within _ fun content hw => ?_) (by omega)
    exact (h.soleBound .nil _ _ (by omega)).mono (by omega)
  refine .bind (.doubleColon ht) fun _ r₁ h₁ => ?_
  refine .bind (h.segments ht false false [] _ _ (by omega)) fun _ r₂ h₂ => ?_
  exact h.inputs ht _ _ (by omega)

theorem readInputs (h : TySteady n) (ht : Trailing tail) : Steady tail 1 0 readInputs (n + 1) := by
  refine .succ (by omega) fun ts m hm => .peek ?_
  refine .ite (startsWith_append (fun _ => rfl) ht) (fun _ => ?_) fun _ => .pure ()
  refine .bind (.within _ fun content hw => h.types _ _ (by omega)) fun _ r hr => ?_
  exact (h.result ht _ _ (by omega)).mono (by omega)

theorem readPathTy (h : TySteady n) (ht : Trailing tail) (plus : Bool) :
    Steady tail 5 1 (readPathTy plus) (n + 1) := by
  refine .succ (by omega) fun ts m hm => ?_
  refine .bind (k := 1) (.consumed ?_) fun _ _ _ => .pure _
  refine .bind (h.path ht false _ _ (by omega)) fun t r hr => ?_
  exact .bind (h.extension ht plus t _ _ (by omega)) fun _ _ _ => .pure _

theorem readExtension (h : TySteady n) (ht : Trailing tail) (plus : Bool) (t : Ty) :
    Steady tail 1 0 (readExtension plus t) (n + 1) := by
  refine .succ (by omega) fun ts m hm => .peek ?_
  refine .ite ?_ (fun hc => ?_) fun _ => ?_
  · rw [startsWithMark, startsWith_append (fun _ => rfl) ht, startsWithPair_append rfl rfl ht]
  · rw [Bool.and_eq_true, Bool.and_eq_true] at hc
    refine .bind (.advance_one hc.1.2) fun _ r hr => .peek ?_
    refine .ite (startsWith_append (fun _ => rfl) ht) (fun hg => ?_) fun _ => .refuse _
    exact .bind (.advance_one hg) fun _ _ _ => .pure _
  refine .ite ?_ (fun hc => ?_) fun _ => .pure _
  · rw [startsWithMark, startsWith_append (fun _ => rfl) ht]
  · rw [Bool.and_eq_true] at hc
    refine .bind (.advance_one hc.2) fun _ r hr => ?_
    exact .bind (h.bounds ht _ _ (by omega)) fun _ _ _ => .pure _

theorem readPath (h : TySteady n) (ht : Trailing tail) (inExpr : Bool) :
    Steady tail 4 1 (readPath inExpr) (n + 1) := by
  refine .succ (by omega) fun ts m hm => .peek ?_
  refine .ite (startsWith_append (fun _ => rfl) ht) (fun hc => ?_) fun _ => ?_
  · refine .bind (.consumed (h.qualifier ht _ _ (by omega))) fun _ r hr => ?_
    exact (h.segments ht _ _ _ _ _ (by omega)).mono (by omega)
  refine .ite (startsWithPair_append rfl rfl ht) (fun hc => ?_) fun _ => ?_
  · have hl := length_of_startsWithPair hc
    rw [List.take_append_of_le_length hl]
    refine .bind (.advance hl) fun _ r hr => ?_
    exact (h.segments ht _ _ _ _ _ (by omega)).mono (by omega)
  · exact h.segments ht _ _ _ _ _ (by omega)

theorem readQualifier (h : TySteady n) (ht : Trailing tail) :
    Steady tail 3 1 readQualifier (n + 1) := by
  refine .succ (by omega) fun ts m hm => ?_
  refine .bind (.mark '<') fun _ r₁ h₁ => ?_
  refine .bind (h.ty ht true _ _ (by omega)) fun _ r₂ h₂ => ?_
  refine .bind (h.trait ht _ _ (by omega)) fun _ r₃ h₃ => ?_
  refine .bind (.mark '>') fun _ r₄ h₄ => ?_
  refine .bind (.mark ':') fun _ r₅ h₅ => ?_
  exact (Agrees.mark ':').mono (by omega)

theorem readTrait (h : TySteady n) (ht : Trailing tail) : Steady tail 1 0 readTrait (n + 1) := by
  refine .succ (by omega) fun ts m hm => .peek ?_
  refine .ite (startsWith_append (fun _ => rfl) ht) (fun hc => ?_) fun _ => .pure ()
  refine .bind (.advance_one hc) fun _ r hr => ?_
  exact .bind (h.path ht false _ _ (by omega)) fun _ _ _ => .pure ()

theorem readSegments (h : TySteady n) (ht : Trailing tail) (inExpr qualified : Bool)
    (lead : List Token) : Steady tail 2 1 (readSegments inExpr qualified lead) (n + 1) := by
  refine .succ (by omega) fun ts m hm => ?_
  refine .bind (k := 1) (.consumed ?_) fun x r hr => ?_
  · refine .bind .segmentWord fun w r hr => ?_
    exact .bind (h.arguments ht inExpr _ _ (by omega)) fun _ _ _ => .pure _
  · obtain ⟨⟨w, arguments⟩, read⟩ := x
    refine .peek (.ite (continuesPath_append ht) (fun hc => ?_) fun _ => .pure _)
    have hl := length_of_continuesPath hc
    rw [List.take_append_of_le_length hl]
    refine .bind (.advance hl) fun _ r₂ h₂ => ?_
    exact (h.segments ht _ _ _ _ _ (by omega)).mono (by omega)

theorem readArguments (h : TySteady n) (ht : Trailing tail) (inExpr : Bool) :
    Steady tail 1 0 (readArguments inExpr) (n + 1) := by
  refine .succ (by omega) fun ts m hm => .peek ?_
  rw [argumentsOpening?_append inExpr ht]
  cases ha : argumentsOpening? inExpr ts with
  | none => exact .pure _
  | some i =>
    obtain ⟨hi, hl⟩ := length_of_argumentsOpening? ha
    dsimp only
    rw [List.take_append_of_le_length hl]
    refine .bind (.advance hl) fun _ r₁ h₁ => ?_
    refine .bind (h.items ht _ _ (by omega)) fun x r₂ h₂ => ?_
    refine .bind (.takeMark '>') fun closing r₃ h₃ => ?_
    exact Agrees.mono (.pure _) (by omega)

theorem readItems (h : TySteady n) (ht : Trailing tail) : Steady tail 8 0 readItems (n + 1) := by
  refine .succ (by omega) fun ts m hm => .peek ?_
  refine .ite (startsWith_append (fun _ => rfl) ht) (fun _ => .pure _) fun _ => ?_
  refine .bind (h.argument ht _ _ (by omega)) fun a r₁ h₁ => .peek ?_
  refine .ite (startsWith_append (fun _ => rfl) ht) (fun _ => .pure _) fun _ => ?_
  refine .bind (.takeMark ',') fun comma r₂ h₂ => ?_
  exact .bind (h.items ht _ _ (by omega)) fun _ _ _ => .pure _

theorem readArgument (h : TySteady n) (ht : Trailing tail) :
    Steady tail 7 1 readArgument (n + 1) := by
  refine .succ (by omega) fun ts m hm => .peek ?_
  refine .ite ?_ (fun hc => ?_) fun _ => ?_
  · rw [startsWithGroup, startsWith_append (fun _ => rfl) ht, startsWith_append (fun _ => rfl) ht]
  · have hl : 1 ≤ ts.length := by
      rw [Bool.or_eq_true] at hc
      exact hc.elim length_of_startsWith length_of_startsWith
    rw [List.take_append_of_le_length hl]
    exact .bind (.advance hl) fun _ _ _ => .pure _
  refine .ite (startsWithConstant_append ht) (fun _ => ?_) fun _ => ?_
  · exact .bind (.consumed .literal) fun _ _ _ => .pure _
  · refine .bind (k := 1) (.consumed ?_) fun _ _ _ => .pure _
    refine .bind (h.ty ht true _ _ (by omega)) fun t r hr => ?_
    exact .bind (h.binding ht _ _ (by omega)) fun _ _ _ => .pure _

theorem readBinding (h : TySteady n) (ht : Trailing tail) :
    Steady tail 1 0 readBinding (n + 1) := by
  refine .succ (by omega) fun ts m hm => .peek ?_
  refine .ite (startsWith_append (fun _ => rfl) ht) (fun hc => ?_) fun _ => ?_
  · refine .bind (.advance_one hc) fun _ r hr => ?_
    exact .bind (h.assigned ht _ _ (by omega)) fun _ _ _ => .pure _
  refine .ite ?_ (fun hc => ?_) fun _ => .pure _
  · rw [startsWithMark, startsWith_append (fun _ => rfl) ht, startsWithPair_append rfl rfl ht]
  · rw [Bool.and_eq_true] at hc
    refine .bind (.advance_one hc.1) fun _ r hr => ?_
    exact .bind (h.bounds ht _ _ (by omega)) fun _ _ _ => .pure _

theorem readAssigned (h : TySteady n) (ht : Trailing tail) :
    Steady tail 7 1 readAssigned (n + 1) := by
  refine .succ (by omega) fun ts m hm => .peek ?_
  refine .ite (startsWith_append (fun _ => rfl) ht) .advance_one fun _ => ?_
  refine .ite (startsWithConstant_append ht) (fun _ => ?_) fun _ => ?_
  · exact .bind .literal fun _ _ _ => .pure ()
  · exact .bind (h.ty ht true _ _ (by omega)) fun _ _ _ => .pure ()

end TySteady

/-- The readers of types are steady in any number of steps. -/
theorem tySteady (n : Nat) : TySteady n := by
  induction n with
  | zero => constructor <;> intros <;> exact .zero rfl
  | succ n ih =>
    exact
      { ty := ih.readTy
        element := ih.readElement
        constant := ih.readConstant
        constantRest := ih.readConstantRest
        grouped := ih.readGrouped
        content := ih.readContent
        tuple := ih.readTuple
        types := ih.readTypes
        further := ih.readFurther
        function := ih.readFunction
        parameters := ih.readParameters
        parameter := ih.readParameter
        result := ih.readResult
        bounds := ih.readBounds
        soleBound := ih.readSoleBound
        bound := ih.readBound
        inputs := ih.readInputs
        pathTy := ih.readPathTy
        extension := ih.readExtension
        path := ih.readPath
        qualifier := ih.readQualifier
        trait := ih.readTrait
        segments := ih.readSegments
        arguments := ih.readArguments
        items := ih.readItems
        argument := ih.readArgument
        binding := ih.readBinding
        assigned := ih.readAssigned }

end RestDispatch.Declaration
