import RestDispatch.Proofs.Declaration.TySteadiness

/-!
# Expressions before more tokens

The readers of expressions are steady, as those of types are: what they read is the same whatever
stands behind the comma after it, in any number of steps that is enough for the tokens.
-/

namespace RestDispatch.Declaration

open Token Reader

section Heads

variable {ts tail : List Token}

theorem endsExpr_append (ht : Trailing tail) : endsExpr (ts ++ tail) = endsExpr ts := by
  cases ts with
  | cons t ts => rfl
  | nil =>
    cases ht with
    | nil => rfl
    | comma j us => rfl

theorem rangeLength_append (h : 2 ≤ ts.length) (ht : Trailing tail) :
    rangeLength (ts ++ tail) = rangeLength ts := by
  rw [rangeLength, rangeLength, List.drop_append_of_le_length (by omega),
    startsWithPair_append rfl rfl ht]

theorem rangeLength_le (h : 2 ≤ ts.length) : 2 ≤ rangeLength ts ∧ rangeLength ts ≤ ts.length := by
  rw [rangeLength]
  split
  · next hp =>
    have hl := length_of_startsWithPair hp
    rw [List.length_drop] at hl
    omega
  · omega

theorem startsWithClosure_append (ht : Trailing tail) :
    startsWithClosure (ts ++ tail) = startsWithClosure ts := by
  have hb : startsWithBinder (ts ++ tail) = startsWithBinder ts :=
    startsWithEach_append (by simp [isWord, isMark, isLifetime]) ht
  rw [startsWithClosure, startsWithClosure, hb, dropWhile_append_trailing (fun _ => rfl) ht,
    startsWithMark, startsWith_append (fun _ => rfl) ht]

theorem startsWithAttribute_append (ht : Trailing tail) :
    startsWithAttribute (ts ++ tail) = startsWithAttribute ts :=
  startsWithEach_append (by simp [isMark, isGroup]) ht

theorem startsWithMacro_append (ht : Trailing tail) :
    startsWithMacro (ts ++ tail) = startsWithMacro ts :=
  startsWithEach_append (by simp [isMark, isAnyGroup]) ht

end Heads

/-- The readers of expressions are steady in `n` steps. -/
structure ExprSteady (n : Nat) : Prop where
  expr : ∀ {tail}, Trailing tail → ∀ records, Steady tail 9 1 (readExpr records) n
  operands : ∀ {tail}, Trailing tail → ∀ records form,
    Steady tail 1 0 (readOperands records form) n
  limit : ∀ {tail}, Trailing tail → ∀ records, Steady tail 9 0 (readLimit records) n
  unary : ∀ {tail}, Trailing tail → ∀ records, Steady tail 8 1 (readUnary records) n
  trailers : ∀ {tail}, Trailing tail → ∀ form, Steady tail 1 0 (readTrailers form) n
  exprs : Steady [] 10 0 readExprs n
  moreExprs : Steady [] 3 0 readMoreExprs n
  elements : Steady [] 10 0 readElements n
  member : ∀ {tail}, Trailing tail → Steady tail 1 1 readMember n
  operand : ∀ {tail}, Trailing tail → ∀ records, Steady tail 7 1 (readOperand records) n
  keyword : ∀ {tail}, Trailing tail → ∀ records, Steady tail 6 1 (readKeyword records) n
  rest : ∀ {tail}, Trailing tail → ∀ records, Steady tail 10 0 (readRest records) n
  alternative : ∀ {tail}, Trailing tail → Steady tail 1 0 readElse n
  pathExpr : ∀ {tail}, Trailing tail → ∀ records, Steady tail 6 1 (readPathExpr records) n
  fieldValues : Steady [] 2 0 readFieldValues n
  fieldValue : Steady [] 1 1 readFieldValue n
  closure : ∀ {tail}, Trailing tail → ∀ records, Steady tail 6 1 (readClosure records) n
  body : ∀ {tail}, Trailing tail → ∀ records, Steady tail 10 1 (readBody records) n
  params : ∀ {tail}, Trailing tail → Steady tail 6 0 readParams n
  parameterTy : ∀ {tail}, Trailing tail → Steady tail 1 0 readParameterTy n
  pattern : ∀ {tail}, Trailing tail → Steady tail 5 1 readPattern n
  patternRest : ∀ {tail}, Trailing tail → Steady tail 1 0 readPatternRest n
  patterns : Steady [] 7 0 readPatterns n
  alternatives : ∀ {tail}, Trailing tail → Steady tail 6 1 readAlternatives n

namespace ExprSteady

variable {tail : List Token} {n : Nat}

theorem readExpr (h : ExprSteady n) (ht : Trailing tail) (records : Bool) :
    Steady tail 9 1 (readExpr records) (n + 1) := by
  refine .succ (by omega) fun ts m hm => ?_
  refine .bind (h.unary ht records _ _ (by omega)) fun form r hr => ?_
  exact h.operands ht records form _ _ (by omega)

theorem readOperands (h : ExprSteady n) (ht : Trailing tail) (records : Bool) (form : ExprForm) :
    Steady tail 1 0 (readOperands records form) (n + 1) := by
  refine .succ (by omega) fun ts m hm => .peek ?_
  refine .ite (startsWith_append (fun _ => rfl) ht) (fun hc => ?_) fun _ => ?_
  · refine .bind (.advance_one hc) fun _ r₁ h₁ => ?_
    refine .bind ((tySteady n).ty ht false _ _ (by omega)) fun _ r₂ h₂ => ?_
    exact h.operands ht records _ _ _ (by omega)
  refine .ite (startsWithPair_append rfl rfl ht) (fun hc => ?_) fun _ => ?_
  · have hl := length_of_startsWithPair hc
    obtain ⟨h2, hr⟩ := rangeLength_le hl
    rw [rangeLength_append hl ht]
    refine .bind (.advance hr) fun _ r₁ h₁ => ?_
    refine .bind (h.limit ht records _ _ (by omega)) fun _ r₂ h₂ => ?_
    exact (h.operands ht records _ _ _ (by omega)).mono (by omega)
  rw [operatorLength?_append ht]
  cases ho : operatorLength? ts with
  | none => exact .pure _
  | some i =>
    obtain ⟨hi, hl⟩ := length_of_operatorLength? ho
    refine .bind (.advance hl) fun _ r₁ h₁ => ?_
    refine .bind (h.unary ht records _ _ (by omega)) fun _ r₂ h₂ => ?_
    exact (h.operands ht records _ _ _ (by omega)).mono (by omega)

theorem readLimit (h : ExprSteady n) (ht : Trailing tail) (records : Bool) :
    Steady tail 9 0 (readLimit records) (n + 1) := by
  refine .succ (by omega) fun ts m hm => .peek ?_
  refine .ite (endsExpr_append ht) (fun _ => .pure ()) fun _ => ?_
  exact .bind (h.unary ht records _ _ (by omega)) fun _ _ _ => .pure ()

theorem readUnary (h : ExprSteady n) (ht : Trailing tail) (records : Bool) :
    Steady tail 8 1 (readUnary records) (n + 1) := by
  refine .succ (by omega) fun ts m hm => .peek ?_
  refine .ite (startsWithAttribute_append ht) (fun hc => ?_) fun _ => ?_
  · refine .bind (.advance (length_of_startsWithEach hc)) fun _ r hr => ?_
    exact (h.unary ht records _ _ (by omega)).mono (by omega)
  refine .ite (startsWith_append (fun _ => rfl) ht) (fun hc => ?_) fun _ => ?_
  · refine .bind (.advance_one hc) fun _ r₁ h₁ => ?_
    refine .bind (.skipIf (fun _ => rfl) ht) fun _ r₂ h₂ => ?_
    exact .bind (h.unary ht records _ _ (by omega)) fun _ _ _ => .pure _
  refine .ite (startsWith_append (fun _ => rfl) ht) (fun hc => ?_) fun _ => ?_
  · refine .bind (.advance_one hc) fun _ r₁ h₁ => ?_
    exact .bind (h.unary ht records _ _ (by omega)) fun _ _ _ => .pure _
  refine .bind (h.operand ht records _ _ (by omega)) fun form r hr => ?_
  exact h.trailers ht form _ _ (by omega)

theorem readTrailers (h : ExprSteady n) (ht : Trailing tail) (form : ExprForm) :
    Steady tail 1 0 (readTrailers form) (n + 1) := by
  refine .succ (by omega) fun ts m hm => .peek ?_
  refine .ite (startsWith_append (fun _ => rfl) ht) (fun hc => ?_) fun _ => ?_
  · refine .bind (.within _ fun content hw => h.exprs _ _ (by omega)) fun _ r hr => ?_
    exact (h.trailers ht _ _ _ (by omega)).mono (by omega)
  refine .ite (startsWith_append (fun _ => rfl) ht) (fun hc => ?_) fun _ => ?_
  · refine .bind (.within _ fun content hw => ?_) fun _ r hr => ?_
    · exact (h.expr .nil true _ _ (by omega)).mono (by omega)
    · exact (h.trailers ht _ _ _ (by omega)).mono (by omega)
  refine .ite (startsWith_append (fun _ => rfl) ht) (fun hc => ?_) fun _ => ?_
  · refine .bind (.advance_one hc) fun _ r hr => ?_
    exact h.trailers ht _ _ _ (by omega)
  refine .ite ?_ (fun hc => ?_) fun _ => .pure _
  · rw [startsWithMark, startsWith_append (fun _ => rfl) ht, startsWithPair_append rfl rfl ht]
  · rw [Bool.and_eq_true] at hc
    refine .bind (.advance_one hc.1) fun _ r₁ h₁ => ?_
    refine .bind (h.member ht _ _ (by omega)) fun _ r₂ h₂ => ?_
    exact h.trailers ht _ _ _ (by omega)

theorem readExprs (h : ExprSteady n) : Steady [] 10 0 readExprs (n + 1) := by
  refine .succ (by omega) fun ts m hm => .peek ?_
  refine .ite (by rw [List.append_nil]) (fun _ => .pure ()) fun _ => ?_
  exact .bind (h.expr .nil true _ _ (by omega)) fun _ r hr => h.moreExprs _ _ (by omega)

theorem readMoreExprs (h : ExprSteady n) : Steady [] 3 0 readMoreExprs (n + 1) := by
  refine .succ (by omega) fun ts m hm => .peek ?_
  refine .ite (by rw [List.append_nil]) (fun _ => .pure ()) fun _ => ?_
  exact .bind (.mark ',') fun _ r hr => (h.exprs _ _ (by omega)).mono (by omega)

theorem readElements (h : ExprSteady n) : Steady [] 10 0 readElements (n + 1) := by
  refine .succ (by omega) fun ts m hm => .peek ?_
  refine .ite (by rw [List.append_nil]) (fun _ => .pure ()) fun _ => ?_
  refine .bind (h.expr .nil true _ _ (by omega)) fun _ r₁ h₁ => .peek ?_
  refine .ite (startsWith_append (fun _ => rfl) .nil) (fun hc => ?_) fun _ => ?_
  · refine .bind (.advance_one hc) fun _ r₂ h₂ => ?_
    exact .bind (h.expr .nil true _ _ (by omega)) fun _ _ _ => Agrees.mono (.pure ()) (by omega)
  · exact (h.moreExprs _ _ (by omega)).mono (by omega)

theorem readMember (ht : Trailing tail) :
    Steady tail 1 1 readMember (n + 1) := by
  refine .succ (by omega) fun ts m hm => .peek ?_
  refine .ite (startsWith_append (fun _ => rfl) ht) .advance_one fun _ => ?_
  refine .ite (startsWith_append (fun _ => rfl) ht) (fun hc => ?_) fun _ => .refuse _
  refine .bind (.advance_one hc) fun _ r hr => ?_
  exact .bind ((tySteady n).arguments ht true _ _ (by omega)) fun _ _ _ => .pure ()

theorem readOperand (h : ExprSteady n) (ht : Trailing tail) (records : Bool) :
    Steady tail 7 1 (readOperand records) (n + 1) := by
  refine .succ (by omega) fun ts m hm => .peek ?_
  refine .ite (startsWithClosure_append ht) (fun _ => ?_) fun _ => ?_
  · exact h.closure ht records _ _ (by omega)
  refine .ite (startsWith_append (fun _ => rfl) ht) (fun hc => ?_) fun _ => ?_
  · exact .bind .literal fun _ _ _ => .pure _
  refine .ite (startsWith_append (fun _ => rfl) ht) (fun _ => ?_) fun _ => ?_
  · refine .bind (.within _ fun content hw => h.exprs _ _ (by omega)) fun _ _ _ => ?_
    exact Agrees.mono (.pure _) (by omega)
  refine .ite (startsWith_append (fun _ => rfl) ht) (fun _ => ?_) fun _ => ?_
  · refine .bind (.within _ fun content hw => h.elements _ _ (by omega)) fun _ _ _ => ?_
    exact Agrees.mono (.pure _) (by omega)
  refine .ite ?_ (fun hc => ?_) fun _ => ?_
  · rw [startsWithGroup, startsWithWord, startsWith_append (fun _ => rfl) ht,
      startsWith_append (fun _ => rfl) ht]
  · have hl : 1 ≤ ts.length := by
      rw [Bool.or_eq_true] at hc
      exact hc.elim length_of_startsWith length_of_startsWith
    exact .bind (.advance hl) fun _ _ _ => .pure _
  refine .ite (startsWith_append (fun _ => rfl) ht) (fun hc => ?_) fun _ => ?_
  · refine .bind (.advance_one hc) fun _ r₁ h₁ => ?_
    refine .bind (.skipIf (fun _ => rfl) ht) fun _ r₂ h₂ => ?_
    exact (h.operand ht records _ _ (by omega)).mono (by omega)
  refine .ite (startsWithPair_append rfl rfl ht) (fun hc => ?_) fun _ => ?_
  · have hl := length_of_startsWithPair hc
    obtain ⟨h2, hr⟩ := rangeLength_le hl
    rw [rangeLength_append hl ht]
    refine .bind (.advance hr) fun _ r₁ h₁ => ?_
    refine .bind (h.rest ht records _ _ (by omega)) fun _ _ _ => ?_
    exact Agrees.mono (.pure _) (by omega)
  refine .ite ?_ (fun _ => ?_) fun _ => h.keyword ht records _ _ (by omega)
  · rw [startsWithMark, startsWithMark, startsWith_append (fun _ => rfl) ht,
      startsWith_append (fun _ => rfl) ht, startsWith_append (fun _ => rfl) ht]
  · exact h.pathExpr ht records _ _ (by omega)

theorem readKeyword (h : ExprSteady n) (ht : Trailing tail) (records : Bool) :
    Steady tail 6 1 (readKeyword records) (n + 1) := by
  refine .succ (by omega) fun ts m hm => .peek ?_
  refine .ite (startsWith_append (fun _ => rfl) ht) (fun hc => ?_) fun _ => ?_
  · refine .bind (.advance_one hc) fun _ r₁ h₁ => ?_
    refine .bind (h.expr ht false _ _ (by omega)) fun _ r₂ h₂ => ?_
    refine .bind (.skipGroup .brace) fun _ r₃ h₃ => ?_
    exact .bind (h.alternative ht _ _ (by omega)) fun _ _ _ => .pure _
  refine .ite (startsWith_append (fun _ => rfl) ht) (fun hc => ?_) fun _ => ?_
  · refine .bind (.advance_one hc) fun _ r₁ h₁ => ?_
    refine .bind (h.alternatives ht _ _ (by omega)) fun _ r₂ h₂ => ?_
    refine .bind (.skipWord "in") fun _ r₃ h₃ => ?_
    refine .bind (h.expr ht false _ _ (by omega)) fun _ r₄ h₄ => ?_
    exact .bind (.skipGroup .brace) fun _ _ _ => .pure _
  refine .ite (startsWith_append (fun _ => rfl) ht) (fun hc => ?_) fun _ => ?_
  · refine .bind (.advance_one hc) fun _ r₁ h₁ => ?_
    refine .bind (.skipIf (fun _ => rfl) ht) fun _ r₂ h₂ => ?_
    exact .bind (.skipGroup .brace) fun _ _ _ => .pure _
  refine .ite (startsWith_append (fun _ => rfl) ht) (fun hc => ?_) fun _ => ?_
  · refine .bind (.advance_one hc) fun _ r₁ h₁ => ?_
    refine .bind (h.alternatives ht _ _ (by omega)) fun _ r₂ h₂ => ?_
    refine .bind (.mark '=') fun _ r₃ h₃ => ?_
    exact .bind (h.expr ht false _ _ (by omega)) fun _ _ _ => .pure _
  refine .ite (startsWith_append (fun _ => rfl) ht) (fun hc => ?_) fun _ => .refuse _
  refine .bind (.advance_one hc) fun _ r₁ h₁ => ?_
  refine .bind (.skipIf (fun _ => rfl) ht) fun _ r₂ h₂ => ?_
  exact .bind (h.rest ht records _ _ (by omega)) fun _ _ _ => .pure _

theorem readRest (h : ExprSteady n) (ht : Trailing tail) (records : Bool) :
    Steady tail 10 0 (readRest records) (n + 1) := by
  refine .succ (by omega) fun ts m hm => .peek ?_
  refine .ite (endsExpr_append ht) (fun _ => .pure ()) fun _ => ?_
  exact .bind (h.expr ht records _ _ (by omega)) fun _ _ _ => .pure ()

theorem readElse (h : ExprSteady n) (ht : Trailing tail) : Steady tail 1 0 readElse (n + 1) := by
  refine .succ (by omega) fun ts m hm => .peek ?_
  refine .ite (startsWith_append (fun _ => rfl) ht) (fun hc => ?_) fun _ => .pure ()
  refine .bind (.advance_one hc) fun _ r₁ h₁ => .peek ?_
  refine .ite (startsWith_append (fun _ => rfl) ht) (fun _ => ?_) fun _ => ?_
  · exact .bind (h.operand ht true _ _ (by omega)) fun _ _ _ => .pure ()
  · exact (Agrees.skipGroup .brace).mono (by omega)

theorem readPathExpr (h : ExprSteady n) (ht : Trailing tail) (records : Bool) :
    Steady tail 6 1 (readPathExpr records) (n + 1) := by
  refine .succ (by omega) fun ts m hm => ?_
  refine .bind ((tySteady n).path ht true _ _ (by omega)) fun _ r hr => .peek ?_
  refine .ite (startsWithMacro_append ht) (fun hc => ?_) fun _ => ?_
  · exact .bind (.advance (length_of_startsWithEach hc)) fun _ _ _ => .pure _
  refine .ite ?_ (fun hc => ?_) fun _ => .pure _
  · rw [startsWithGroup, startsWith_append (fun _ => rfl) ht]
  · refine .bind (.within _ fun content hw => h.fieldValues _ _ (by omega)) fun _ _ _ => ?_
    exact Agrees.mono (.pure _) (by omega)

theorem readFieldValues (h : ExprSteady n) : Steady [] 2 0 readFieldValues (n + 1) := by
  refine .succ (by omega) fun ts m hm => .peek ?_
  refine .ite (by rw [List.append_nil]) (fun _ => .pure ()) fun _ => ?_
  refine .ite (startsWithPair_append rfl rfl .nil) (fun hc => ?_) fun _ => ?_
  · refine .bind (.advance (length_of_startsWithPair hc)) fun _ r hr => ?_
    exact (h.rest .nil true _ _ (by omega)).mono (by omega)
  refine .bind (h.fieldValue _ _ (by omega)) fun _ r₁ h₁ => .peek ?_
  refine .ite (by rw [List.append_nil]) (fun _ => .pure ()) fun _ => ?_
  exact .bind (.mark ',') fun _ r₂ h₂ => (h.fieldValues _ _ (by omega)).mono (by omega)

theorem readFieldValue (h : ExprSteady n) : Steady [] 1 1 readFieldValue (n + 1) := by
  refine .succ (by omega) fun ts m hm => .peek ?_
  refine .ite (by rw [List.append_nil]) (fun hc => ?_) fun _ => .refuse _
  rw [Bool.or_eq_true] at hc
  refine .bind (.advance (hc.elim length_of_startsWith length_of_startsWith)) fun _ r₁ h₁ => ?_
  refine .peek (.ite (startsWith_append (fun _ => rfl) .nil) (fun hc => ?_) fun _ => .pure ())
  refine .bind (.advance_one hc) fun _ r₂ h₂ => ?_
  exact .bind (h.expr .nil true _ _ (by omega)) fun _ _ _ => .pure ()

theorem readClosure (h : ExprSteady n) (ht : Trailing tail) (records : Bool) :
    Steady tail 6 1 (readClosure records) (n + 1) := by
  refine .succ (by omega) fun ts m hm => ?_
  refine .bind (steady_readBinder ht n _ _ (by omega)) fun _ r₁ h₁ => ?_
  refine .bind (k := 0) (.replace (dropWhile_append_trailing (fun _ => rfl) ht) ?_)
    fun _ r₂ h₂ => ?_
  · exact weightOfList_le_of_suffix (List.dropWhile_suffix _)
  refine .bind (.mark '|') fun _ r₃ h₃ => ?_
  refine .bind (h.params ht _ _ (by omega)) fun params r₄ h₄ => ?_
  refine .bind (.mark '|') fun _ r₅ h₅ => ?_
  exact .bind (h.body ht records _ _ (by omega)) fun _ _ _ => .pure _

theorem readBody (h : ExprSteady n) (ht : Trailing tail) (records : Bool) :
    Steady tail 10 1 (readBody records) (n + 1) := by
  refine .succ (by omega) fun ts m hm => .peek ?_
  refine .ite (startsWithPair_append rfl rfl ht) (fun hc => ?_) fun _ => ?_
  · refine .bind (.advance (length_of_startsWithPair hc)) fun _ r₁ h₁ => ?_
    refine .bind ((tySteady n).ty ht false _ _ (by omega)) fun _ r₂ h₂ => ?_
    exact (Agrees.skipGroup .brace).mono (by omega)
  · exact .bind (h.expr ht records _ _ (by omega)) fun _ _ _ => .pure ()

theorem readParams (h : ExprSteady n) (ht : Trailing tail) :
    Steady tail 6 0 readParams (n + 1) := by
  refine .succ (by omega) fun ts m hm => .peek ?_
  refine .ite (startsWith_append (fun _ => rfl) ht) (fun _ => .pure _) fun _ => ?_
  refine .ite (startsWithAttribute_append ht) (fun hc => ?_) fun _ => ?_
  · refine .bind (.advance (length_of_startsWithEach hc)) fun _ r hr => ?_
    exact (h.params ht _ _ (by omega)).mono (by omega)
  refine .bind (h.pattern ht _ _ (by omega)) fun _ r₁ h₁ => ?_
  refine .bind (h.parameterTy ht _ _ (by omega)) fun t r₂ h₂ => .peek ?_
  refine .ite (startsWith_append (fun _ => rfl) ht) (fun _ => .pure _) fun _ => ?_
  refine .bind (.mark ',') fun _ r₃ h₃ => ?_
  exact .bind (h.params ht _ _ (by omega)) fun _ _ _ => Agrees.mono (.pure _) (by omega)

theorem readParameterTy (ht : Trailing tail) :
    Steady tail 1 0 readParameterTy (n + 1) := by
  refine .succ (by omega) fun ts m hm => .peek ?_
  refine .ite (startsWith_append (fun _ => rfl) ht) (fun hc => ?_) fun _ => .pure _
  refine .bind (.advance_one hc) fun _ r hr => ?_
  exact .bind ((tySteady n).ty ht true _ _ (by omega)) fun _ _ _ => .pure _

theorem readPattern (h : ExprSteady n) (ht : Trailing tail) :
    Steady tail 5 1 readPattern (n + 1) := by
  refine .succ (by omega) fun ts m hm => .peek ?_
  refine .ite (startsWith_append (fun _ => rfl) ht) (fun hc => ?_) fun _ => ?_
  · refine .bind (.advance_one hc) fun _ r₁ h₁ => ?_
    refine .bind (.skipIf (fun _ => rfl) ht) fun _ r₂ h₂ => ?_
    exact (h.pattern ht _ _ (by omega)).mono (by omega)
  refine .ite (startsWith_append (fun _ => rfl) ht) (fun _ => ?_) fun _ => ?_
  · exact .mono (.within _ fun content hw => h.patterns _ _ (by omega)) (by omega)
  refine .ite (startsWith_append (fun _ => rfl) ht) (fun _ => ?_) fun _ => ?_
  · exact .mono (.within _ fun content hw => h.patterns _ _ (by omega)) (by omega)
  refine .ite (startsWith_append (fun _ => rfl) ht) .advance_one fun _ => ?_
  refine .ite (startsWithPair_append rfl rfl ht) (fun hc => ?_) fun _ => ?_
  · exact (Agrees.advance (length_of_startsWithPair hc)).mono (by omega)
  refine .ite (startsWithConstant_append ht) (fun _ => ?_) fun _ => ?_
  · exact .bind .literal fun _ _ _ => .pure ()
  refine .ite (startsWith_append (fun _ => rfl) ht) (fun hc => ?_) fun _ => ?_
  · refine .bind (.advance_one hc) fun _ r₁ h₁ => ?_
    refine .bind (.skipIf (fun _ => rfl) ht) fun _ r₂ h₂ => ?_
    exact .bind .name fun _ r₃ h₃ => (h.patternRest ht _ _ (by omega)).mono (by omega)
  refine .ite ?_ (fun _ => ?_) fun _ => .refuse _
  · rw [startsWithMark, startsWith_append (fun _ => rfl) ht, startsWithPair_append rfl rfl ht,
      startsWith_append (fun _ => rfl) ht]
  · refine .bind ((tySteady n).path ht true _ _ (by omega)) fun _ r hr => ?_
    exact (h.patternRest ht _ _ (by omega)).mono (by omega)

theorem readPatternRest (h : ExprSteady n) (ht : Trailing tail) :
    Steady tail 1 0 readPatternRest (n + 1) := by
  refine .succ (by omega) fun ts m hm => .peek ?_
  refine .ite (startsWith_append (fun _ => rfl) ht) (fun hc => ?_) fun _ => ?_
  · exact .bind (.advance_one hc) fun _ r hr => (h.pattern ht _ _ (by omega)).mono (by omega)
  refine .ite (startsWith_append (fun _ => rfl) ht) (fun _ => ?_) fun _ => ?_
  · exact .mono (.within _ fun content hw => h.patterns _ _ (by omega)) (by omega)
  refine .ite (startsWithMacro_append ht) (fun hc => ?_) fun _ => .skipIf (fun _ => rfl) ht
  exact (Agrees.advance (length_of_startsWithEach hc)).mono (by omega)

theorem readPatterns (h : ExprSteady n) : Steady [] 7 0 readPatterns (n + 1) := by
  refine .succ (by omega) fun ts m hm => .peek ?_
  refine .ite (by rw [List.append_nil]) (fun _ => .pure ()) fun _ => ?_
  refine .bind (h.alternatives .nil _ _ (by omega)) fun _ r₁ h₁ => .peek ?_
  refine .ite (by rw [List.append_nil]) (fun _ => .pure ()) fun _ => ?_
  exact .bind (.mark ',') fun _ r₂ h₂ => (h.patterns _ _ (by omega)).mono (by omega)

theorem readAlternatives (h : ExprSteady n) (ht : Trailing tail) :
    Steady tail 6 1 readAlternatives (n + 1) := by
  refine .succ (by omega) fun ts m hm => ?_
  refine .bind (.skipIf (fun _ => rfl) ht) fun _ r₁ h₁ => ?_
  refine .bind (h.pattern ht _ _ (by omega)) fun _ r₂ h₂ => .peek ?_
  refine .ite (startsWith_append (fun _ => rfl) ht) (fun _ => ?_) fun _ => .pure ()
  exact (h.alternatives ht _ _ (by omega)).mono (by omega)

end ExprSteady

/-- The readers of expressions are steady in any number of steps. -/
theorem exprSteady (n : Nat) : ExprSteady n := by
  induction n with
  | zero => constructor <;> intros <;> exact .zero rfl
  | succ n ih =>
    exact
      { expr := ih.readExpr
        operands := ih.readOperands
        limit := ih.readLimit
        unary := ih.readUnary
        trailers := ih.readTrailers
        exprs := ih.readExprs
        moreExprs := ih.readMoreExprs
        elements := ih.readElements
        member := ExprSteady.readMember
        operand := ih.readOperand
        keyword := ih.readKeyword
        rest := ih.readRest
        alternative := ih.readElse
        pathExpr := ih.readPathExpr
        fieldValues := ih.readFieldValues
        fieldValue := ih.readFieldValue
        closure := ih.readClosure
        body := ih.readBody
        params := ih.readParams
        parameterTy := ExprSteady.readParameterTy
        pattern := ih.readPattern
        patternRest := ih.readPatternRest
        patterns := ih.readPatterns
        alternatives := ih.readAlternatives }

end RestDispatch.Declaration
