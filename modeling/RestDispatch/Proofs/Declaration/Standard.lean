import RestDispatch.Declaration.Standard
import RestDispatch.Proofs.Declaration.Keys
import RestDispatch.Proofs.Declaration.ExprSteadiness

/-!
# The standard grammar is lawful

The number of steps that the standard readers are given is enough for any tokens. So what they read
does not depend on it, and the laws of a grammar follow from what the readers do in every number of
steps.
-/

namespace RestDispatch.Declaration

open Token Reader

variable {ts rest tail : List Token} {s s' : Option Delimiter}

/-- The steps for the tokens of a list are enough for fewer tokens as well. -/
theorem add_le_fuelFor {us : List Token} {k : Nat} (hk : k ≤ 16)
    (h : weightOfList ts ≤ weightOfList us) : 8 * weightOfList ts + k ≤ fuelFor us := by
  rw [fuelFor]
  omega

theorem Agrees.wholeTy (ht : Trailing tail) : Extends tail 1 ts readWholeTy readWholeTy := by
  have hm : ∀ us, weightOfList ts ≤ weightOfList us → 8 * weightOfList ts + 6 ≤ fuelFor us :=
    fun us => add_le_fuelFor (by omega)
  refine .peek ⟨?_, ?_⟩
  · exact ((tySteady _).ty ht true ts _ (hm _ (by simp))).extend
  · exact ((tySteady _).ty ht true ts _ (hm _ (Nat.le_refl _))).restrict

theorem Agrees.wholeExpr (ht : Trailing tail) : Extends tail 1 ts readWholeExpr readWholeExpr := by
  have hm : ∀ us, weightOfList ts ≤ weightOfList us → 8 * weightOfList ts + 9 ≤ fuelFor us :=
    fun us => add_le_fuelFor (by omega)
  refine .peek (.bind (k := 1) ⟨?_, ?_⟩ fun x _ _ => .pure _)
  · exact ((exprSteady _).expr ht true ts _ (hm _ (by simp))).consumed.extend
  · exact ((exprSteady _).expr ht true ts _ (hm _ (Nat.le_refl _))).consumed.restrict

/-- What is read as an expression is its tokens and the form that its reader gives. -/
theorem run_consumed_of_run_readWholeExpr {e : Expr}
    (h : readWholeExpr.run ⟨ts, s⟩ = .ok (e, ⟨rest, s'⟩)) :
    (consumed (readExpr true (fuelFor ts))).run ⟨ts, s⟩ =
      .ok ((e.form, e.tokens), ⟨rest, s'⟩) := by
  rw [readWholeExpr, run_peek_bind, run_bind_eq_ok] at h
  dsimp only at h
  obtain ⟨⟨form, read⟩, c, hx, hr⟩ := h
  cases hr
  exact hx

/-- What is written before the rest stands in what is read. -/
theorem Ty.Stands.infix {t : Ty} {read : List Token} (h : t.Stands ts rest)
    (hread : read ++ rest = ts) : t.tokens <:+: read := by
  obtain ⟨before, after, rfl⟩ := h
  refine ⟨before, after, (List.append_left_inj rest).1 ?_⟩
  rw [hread]
  simp only [List.append_assoc]

theorem isTy_iff {t : Ty} : IsTy ts t rest ↔
    (readTy true (fuelFor ts)).run ⟨ts, none⟩ = .ok (t, ⟨rest, none⟩) := by
  rw [IsTy, Grammar.ty, standard, readWholeTy, run_peek_bind]

instance : LawfulGrammar where
  ty_append_iff ht := ⟨fun h => ((Agrees.wholeTy ht).restrict h).2,
    fun h => ((Agrees.wholeTy ht).extend h).2⟩
  expr_append_iff ht := ⟨fun h => ((Agrees.wholeExpr ht).restrict h).2,
    fun h => ((Agrees.wholeExpr ht).extend h).2⟩
  ty_tokens h := (tyWritten _).ty (isTy_iff.1 h)
  expr_tokens h := consumed_append (run_consumed_of_run_readWholeExpr h)
  closure_tokens {ts rest e ps t} h hform ht := by
    have hr := run_consumed_of_run_readWholeExpr h
    have hp := (run_consumed_eq_ok.1 hr).1
    rw [hform] at hp
    exact Ty.Stands.infix (((closureWritten _).expr true).stands hp ht) (consumed_append hr)

/-! ### Groups -/

theorem run_readContent_eq_ok {n : Nat} {content : List Token} {t : Ty} :
    (readContent (n + 1)).run ⟨content, none⟩ = .ok (some t, ⟨[], none⟩) ↔
      (readTy true n).run ⟨content, none⟩ = .ok (t, ⟨[], none⟩) := by
  rw [readContent, run_bind_eq_ok]
  constructor
  · rintro ⟨u, ⟨us, s⟩, hu, h⟩
    rw [run_peek_bind] at h
    split at h
    · obtain ⟨_, _, -, h⟩ := run_bind_eq_ok.1 h
      cases h
    · cases h
      exact hu
  · intro h
    exact ⟨t, _, h, rfl⟩

theorem run_readGrouped_eq_ok {n : Nat} {content : List Token} {t : Ty} :
    (readGrouped true (n + 2)).run ⟨.group .parenthesis content :: rest, none⟩ =
        .ok (.paren t, ⟨rest, none⟩) ↔
      (readTy true n).run ⟨content, none⟩ = .ok (t, ⟨[], none⟩) ∧
        (t.isBound && startsWithMark '+' rest) = false := by
  rw [← run_readContent_eq_ok]
  constructor
  · intro h
    obtain ⟨⟨⟨u, more⟩, read⟩, us, hc, h⟩ := exists_run_of_bind h
    obtain ⟨-, vs, hw, hb⟩ := run_consumed_pair hc
    cases u with
    | none => cases h
    | some u =>
      cases more with
      | true => cases h
      | false =>
        cases h
        obtain ⟨rfl, hplus⟩ := run_readFurther_eq_ok.1 hb
        obtain ⟨_, ⟨⟩, hp⟩ := run_within_eq_ok.1 hw
        exact ⟨hp, hplus⟩
  · rintro ⟨hp, hplus⟩
    refine run_bind_eq_ok.2
      ⟨((some t, false), _), ⟨rest, none⟩, run_consumed_eq_ok.2 ⟨?_, rfl⟩, rfl⟩
    refine run_bind_eq_ok.2 ⟨some t, ⟨rest, none⟩, run_within_eq_ok.2 ⟨content, rfl, hp⟩, ?_⟩
    exact run_bind_eq_ok.2 ⟨false, _, run_readFurther_eq_ok.2 ⟨rfl, hplus⟩, rfl⟩

/-- A group with a token in it is read as such. -/
theorem run_readTy_group {n : Nat} {c : Token} {cs : List Token} :
    (readTy true (n + 1)).run ⟨.group .parenthesis (c :: cs) :: rest, s⟩ =
      (readGrouped true n).run ⟨.group .parenthesis (c :: cs) :: rest, s⟩ := by
  rw [readTy, run_peek_bind]
  rfl

/-- What is read in any number of steps that is enough is read as a type. -/
theorem isTy_iff_run_readTy {n : Nat} {t : Ty} (hn : 8 * weightOfList ts + 6 ≤ n) :
    IsTy ts t rest ↔ (readTy true n).run ⟨ts, none⟩ = .ok (t, ⟨rest, none⟩) := by
  have hread {k m : Nat} (hm : 8 * weightOfList ts + 6 ≤ m)
      (h : (readTy true k).run ⟨ts, none⟩ = .ok (t, ⟨rest, none⟩)) :
      (readTy true m).run ⟨ts, none⟩ = .ok (t, ⟨rest, none⟩) := by
    have hr := (((tySteady k).ty .nil true ts m hm).extend h).2
    rwa [List.append_nil, List.append_nil] at hr
  rw [isTy_iff]
  exact ⟨hread hn, hread (add_le_fuelFor (by omega) (Nat.le_refl _))⟩

/-- A group is read as its content in parentheses if that is one type, and not the first of several
bounds. -/
theorem isTy_group_iff {content : List Token} {t : Ty} :
    IsTy (.group .parenthesis content :: rest) (.paren t) rest ↔
      IsTy content t [] ∧ (t.isBound && startsWithMark '+' rest) = false := by
  cases content with
  | nil =>
    constructor
    · intro h
      cases h
    · rintro ⟨h, -⟩
      cases h
  | cons c cs =>
    have hn : 8 * weightOfList (c :: cs) + 6 ≤
        8 * weightOfList (c :: cs) + 8 * weightOfList rest + 20 := by omega
    have hg : 8 * weightOfList (.group .parenthesis (c :: cs) :: rest) + 6 ≤
        8 * weightOfList (c :: cs) + 8 * weightOfList rest + 20 + 3 := by
      rw [weightOfList_cons, weight_group]
      omega
    rw [isTy_iff_run_readTy hn, isTy_iff_run_readTy hg, run_readTy_group, run_readGrouped_eq_ok]

end RestDispatch.Declaration
