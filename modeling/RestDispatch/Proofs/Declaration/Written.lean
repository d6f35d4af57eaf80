import RestDispatch.Declaration.ExprReader
import RestDispatch.Proofs.Declaration.Reading

/-!
# Types and expressions as they are written

A type is written with the tokens that it was read from, and the types of a closure's parameters
stand in the closure. Most readers keep what they have read as a list of tokens; the others are
followed along their recursion.
-/

namespace RestDispatch.Declaration

open Reader

section Operations

variable {α β : Type} {ts rest : List Token} {s s' : Option Delimiter}

theorem run_ite_cases {b : Bool} {p q : Reader α} {c : Cursor} {x : α × Cursor}
    (h : (if b then p else q).run c = .ok x) :
    (b = true ∧ p.run c = .ok x) ∨ (b = false ∧ q.run c = .ok x) := by
  cases b with
  | true => exact .inl ⟨rfl, h⟩
  | false => exact .inr ⟨rfl, h⟩

/-- Between two readers no tokens are left over in a group if none are after them. -/
theorem exists_run_of_bind {p : Reader α} {f : α → Reader β} {c : Cursor} {b : β}
    (h : (p >>= f).run c = .ok (b, ⟨rest, none⟩)) :
    ∃ a us, p.run c = .ok (a, ⟨us, none⟩) ∧ (f a).run ⟨us, none⟩ = .ok (b, ⟨rest, none⟩) := by
  obtain ⟨a, ⟨us, s⟩, hp, hf⟩ := run_bind_eq_ok.1 h
  obtain rfl : s = none := (f a).stray hf rfl
  exact ⟨a, us, hp, hf⟩

/-- The tokens that have been read stand before those that have not. -/
theorem consumed_append {p : Reader α} {x : α × List Token}
    (h : (consumed p).run ⟨ts, s⟩ = .ok (x, ⟨rest, s'⟩)) : x.2 ++ rest = ts := by
  obtain ⟨hp, hx⟩ := run_consumed_eq_ok.1 h
  obtain ⟨read, hr⟩ := p.suffix hp
  dsimp only at hr
  subst hr
  rw [hx]
  simp

/-- Two parts that are read one after the other, with the tokens of both. -/
theorem run_consumed_pair {p : Reader α} {f : α → Reader β} {a : α} {b : β} {read : List Token}
    (h : (consumed do
      let a ← p
      let b ← f a
      return (a, b)).run ⟨ts, s⟩ = .ok (((a, b), read), ⟨rest, none⟩)) :
    read ++ rest = ts ∧ ∃ us, p.run ⟨ts, s⟩ = .ok (a, ⟨us, none⟩) ∧
      (f a).run ⟨us, none⟩ = .ok (b, ⟨rest, none⟩) := by
  refine ⟨consumed_append h, ?_⟩
  obtain ⟨hc, -⟩ := run_consumed_eq_ok.1 h
  obtain ⟨x, us, hp, hc⟩ := exists_run_of_bind hc
  obtain ⟨y, vs, hf, hc⟩ := exists_run_of_bind hc
  cases hc
  exact ⟨us, hp, hf⟩

theorem readOther_append {p : Reader α} {t : Ty}
    (h : (readOther p).run ⟨ts, s⟩ = .ok (t, ⟨rest, s'⟩)) : t.tokens ++ rest = ts := by
  obtain ⟨x, c, hp, hr⟩ := run_bind_eq_ok.1 h
  cases hr
  exact consumed_append hp

end Operations

/-! ### Types -/

theorem run_segmentWord_eq_ok {w : String} {ts : List Token} {s : Option Delimiter} {c' : Cursor} :
    segmentWord.run ⟨ts, s⟩ = .ok (w, c') ↔
      ∃ rest, ts = .word w :: rest ∧ (pathWords.contains w || isName w) = true ∧
        c' = ⟨rest, s⟩ := by
  rw [segmentWord, run_peek_bind]
  constructor
  · intro h
    split at h
    · next v rest hts =>
      split at h
      · next hv =>
        subst hts
        cases h
        exact ⟨rest, rfl, by rw [hv]; rfl, rfl⟩
      · obtain ⟨us, hts, hn, rfl⟩ := run_name_eq_ok.1 h
        exact ⟨us, hts, by rw [hn, Bool.or_true], rfl⟩
    · obtain ⟨us, hts, hn, rfl⟩ := run_name_eq_ok.1 h
      exact ⟨us, hts, by rw [hn, Bool.or_true], rfl⟩
  · rintro ⟨rest, rfl, hw, rfl⟩
    dsimp only
    split
    · rfl
    · next hv =>
      rw [Bool.not_eq_true] at hv
      rw [hv, Bool.false_or] at hw
      exact run_name_eq_ok.2 ⟨rest, rfl, hw, rfl⟩

/-- Where no bounds are read after a type in parentheses, none stand there. -/
theorem run_readFurther_eq_ok {n : Nat} {plus : Bool} {t : Option Ty} {ts rest : List Token} :
    (readFurther plus t (n + 1)).run ⟨ts, none⟩ = .ok (false, ⟨rest, none⟩) ↔
      ts = rest ∧ (plus && t.any Ty.isBound && startsWithMark '+' rest) = false := by
  rw [readFurther, run_peek_bind]
  cases hb : plus && t.any Ty.isBound && startsWithMark '+' ts with
  | true =>
    rw [if_pos rfl]
    constructor
    · intro h
      obtain ⟨_, _, -, h⟩ := run_bind_eq_ok.1 h
      obtain ⟨_, _, -, h⟩ := run_bind_eq_ok.1 h
      cases h
    · rintro ⟨rfl, h⟩
      cases hb.symm.trans h
  | false =>
    rw [if_neg Bool.false_ne_true]
    constructor
    · intro h
      cases h
      exact ⟨rfl, hb⟩
    · rintro ⟨rfl, -⟩
      rfl

/-- Where a path has no extension, nothing is read after it. -/
theorem eq_of_run_readExtension {n : Nat} {plus : Bool} {t : Ty} {ts rest : List Token}
    (h : (readExtension plus t n).run ⟨ts, none⟩ = .ok (false, ⟨rest, none⟩)) : ts = rest := by
  cases n with
  | zero => cases h
  | succ n =>
    rw [readExtension, run_peek_bind] at h
    dsimp only at h
    split at h
    · obtain ⟨_, _, -, h⟩ := exists_run_of_bind h
      rw [run_peek_bind] at h
      split at h <;> cases h
    split at h
    · obtain ⟨_, _, -, h⟩ := exists_run_of_bind h
      obtain ⟨_, _, -, h⟩ := exists_run_of_bind h
      cases h
    · cases h
      rfl

/-- Where an argument is no binding, nothing is read after it. -/
theorem eq_of_run_readBinding {n : Nat} {ts rest : List Token}
    (h : (readBinding n).run ⟨ts, none⟩ = .ok (false, ⟨rest, none⟩)) : ts = rest := by
  cases n with
  | zero => cases h
  | succ n =>
    rw [readBinding, run_peek_bind] at h
    dsimp only at h
    split at h
    · obtain ⟨_, _, -, h⟩ := exists_run_of_bind h
      obtain ⟨_, _, -, h⟩ := exists_run_of_bind h
      cases h
    split at h
    · obtain ⟨_, _, -, h⟩ := exists_run_of_bind h
      obtain ⟨_, _, -, h⟩ := exists_run_of_bind h
      cases h
    · cases h
      rfl

/-- What types are read from in `n` steps is what they are written with. -/
structure TyWritten (n : Nat) : Prop where
  ty : ∀ {plus ts s t rest}, (readTy plus n).run ⟨ts, s⟩ = .ok (t, ⟨rest, none⟩) →
    t.tokens ++ rest = ts
  grouped : ∀ {plus ts s t rest}, (readGrouped plus n).run ⟨ts, s⟩ = .ok (t, ⟨rest, none⟩) →
    t.tokens ++ rest = ts
  content : ∀ {ts s t}, (readContent n).run ⟨ts, s⟩ = .ok (some t, ⟨[], none⟩) → t.tokens = ts
  pathTy : ∀ {plus ts s t rest}, (readPathTy plus n).run ⟨ts, s⟩ = .ok (t, ⟨rest, none⟩) →
    t.tokens ++ rest = ts
  path : ∀ {inExpr ts s t rest}, (readPath inExpr n).run ⟨ts, s⟩ = .ok (t, ⟨rest, none⟩) →
    t.tokens ++ rest = ts
  segments : ∀ {inExpr qualified lead ts s t rest},
    (readSegments inExpr qualified lead n).run ⟨ts, s⟩ = .ok (t, ⟨rest, none⟩) →
      t.tokens ++ rest = lead ++ ts
  arguments : ∀ {inExpr ts s a rest}, (readArguments inExpr n).run ⟨ts, s⟩ = .ok (a, ⟨rest, none⟩) →
    Ty.argumentsTokens a ++ rest = ts
  items : ∀ {ts s x rest}, (readItems n).run ⟨ts, s⟩ = .ok (x, ⟨rest, none⟩) →
    Ty.itemsTokens x.1 x.2 ++ rest = ts
  argument : ∀ {ts s a rest}, (readArgument n).run ⟨ts, s⟩ = .ok (a, ⟨rest, none⟩) →
    Ty.argumentTokens a ++ rest = ts

namespace TyWritten

variable {n : Nat} {ts rest : List Token} {s : Option Delimiter} {t : Ty}

theorem readTy (h : TyWritten n) {plus : Bool}
    (hr : (readTy plus (n + 1)).run ⟨ts, s⟩ = .ok (t, ⟨rest, none⟩)) : t.tokens ++ rest = ts := by
  rw [Declaration.readTy, run_peek_bind] at hr
  rcases run_ite_cases hr with ⟨hu, hr⟩ | ⟨-, hr⟩
  · obtain ⟨u, us, rfl, hu⟩ := startsWith_iff.1 hu
    obtain rfl : u = .group .parenthesis [] := by
      cases u with
      | group d content => cases d <;> cases content <;> first | rfl | cases hu
      | _ => cases hu
    cases hr
    rfl
  rcases run_ite_cases hr with ⟨-, hr⟩ | ⟨-, hr⟩
  · exact h.grouped hr
  rcases run_ite_cases hr with ⟨-, hr⟩ | ⟨-, hr⟩
  · exact readOther_append hr
  rcases run_ite_cases hr with ⟨-, hr⟩ | ⟨-, hr⟩
  · obtain ⟨x, us, hm, hr⟩ := exists_run_of_bind hr
    obtain ⟨u, vs, ht, hr⟩ := exists_run_of_bind hr
    cases hr
    rw [← consumed_append hm, ← h.ty ht]
    exact List.append_assoc _ _ _
  rcases run_ite_cases hr with ⟨-, hr⟩ | ⟨-, hr⟩
  · exact readOther_append hr
  rcases run_ite_cases hr with ⟨-, hr⟩ | ⟨-, hr⟩
  · exact readOther_append hr
  rcases run_ite_cases hr with ⟨-, hr⟩ | ⟨-, hr⟩
  · exact readOther_append hr
  rcases run_ite_cases hr with ⟨-, hr⟩ | ⟨-, hr⟩
  · exact h.pathTy hr
  rcases run_ite_cases hr with ⟨-, hr⟩ | ⟨-, hr⟩
  · exact readOther_append hr
  rcases run_ite_cases hr with ⟨-, hr⟩ | ⟨-, hr⟩
  · exact readOther_append hr
  rcases run_ite_cases hr with ⟨-, hr⟩ | ⟨-, hr⟩
  · exact readOther_append hr
  rcases run_ite_cases hr with ⟨-, hr⟩ | ⟨-, hr⟩
  · exact h.pathTy hr
  · cases hr

theorem readGrouped (h : TyWritten n) {plus : Bool}
    (hr : (readGrouped plus (n + 1)).run ⟨ts, s⟩ = .ok (t, ⟨rest, none⟩)) :
    t.tokens ++ rest = ts := by
  obtain ⟨⟨⟨u, more⟩, read⟩, us, hc, hr⟩ := exists_run_of_bind hr
  obtain ⟨hread, vs, hw, hb⟩ := run_consumed_pair hc
  cases u with
  | none =>
    cases hr
    exact hread
  | some u =>
    cases more with
    | true =>
      cases hr
      exact hread
    | false =>
      cases hr
      -- no bounds follow, so nothing has been read after the parentheses
      obtain rfl : vs = rest := by
        cases n with
        | zero => cases hb
        | succ n => exact (run_readFurther_eq_ok.1 hb).1
      obtain ⟨content, rfl, hp⟩ := run_within_eq_ok.1 hw
      rw [← h.content hp]
      rfl

theorem readContent (h : TyWritten n)
    (hr : (readContent (n + 1)).run ⟨ts, s⟩ = .ok (some t, ⟨[], none⟩)) : t.tokens = ts := by
  obtain ⟨u, us, hu, hr⟩ := exists_run_of_bind hr
  rw [run_peek_bind] at hr
  split at hr
  · obtain ⟨_, _, -, hr⟩ := exists_run_of_bind hr
    cases hr
  · cases hr
    rw [← h.ty hu, List.append_nil]

theorem readPathTy (h : TyWritten n) {plus : Bool}
    (hr : (readPathTy plus (n + 1)).run ⟨ts, s⟩ = .ok (t, ⟨rest, none⟩)) :
    t.tokens ++ rest = ts := by
  obtain ⟨⟨⟨u, more⟩, read⟩, us, hc, hr⟩ := exists_run_of_bind hr
  obtain ⟨hread, vs, hp, hb⟩ := run_consumed_pair hc
  cases more with
  | true =>
    cases hr
    exact hread
  | false =>
    cases hr
    obtain rfl := eq_of_run_readExtension hb
    exact h.path hp

theorem readPath (h : TyWritten n) {inExpr : Bool}
    (hr : (readPath inExpr (n + 1)).run ⟨ts, s⟩ = .ok (t, ⟨rest, none⟩)) :
    t.tokens ++ rest = ts := by
  rw [Declaration.readPath, run_peek_bind] at hr
  dsimp only at hr
  split at hr
  · obtain ⟨x, us, hq, hr⟩ := exists_run_of_bind hr
    rw [h.segments hr]
    exact consumed_append hq
  split at hr
  · obtain ⟨_, us, ha, hr⟩ := exists_run_of_bind hr
    cases ha
    rw [h.segments hr]
    exact List.take_append_drop 2 ts
  · exact h.segments hr

theorem readSegments (h : TyWritten n) {inExpr qualified : Bool} {lead : List Token}
    (hr : (readSegments inExpr qualified lead (n + 1)).run ⟨ts, s⟩ = .ok (t, ⟨rest, none⟩)) :
    t.tokens ++ rest = lead ++ ts := by
  obtain ⟨⟨⟨w, a⟩, read⟩, us, hc, hr⟩ := exists_run_of_bind hr
  obtain ⟨hread, vs, hw, ha⟩ := run_consumed_pair hc
  rw [run_peek_bind] at hr
  dsimp only at hr
  split at hr
  · obtain ⟨_, us, hd, hr⟩ := exists_run_of_bind hr
    cases hd
    rw [h.segments hr, ← hread]
    simp only [List.append_assoc, List.take_append_drop]
  · cases hr
    obtain ⟨us, rfl, -, hc⟩ := run_segmentWord_eq_ok.1 hw
    cases hc
    rw [← h.arguments ha, Ty.tokens]
    simp only [List.append_assoc, List.cons_append]

theorem readArguments (h : TyWritten n) {inExpr : Bool} {a : Option (TyArguments Ty)}
    (hr : (readArguments inExpr (n + 1)).run ⟨ts, s⟩ = .ok (a, ⟨rest, none⟩)) :
    Ty.argumentsTokens a ++ rest = ts := by
  rw [Declaration.readArguments, run_peek_bind] at hr
  dsimp only at hr
  split at hr
  · next i _ =>
    obtain ⟨_, us, hd, hr⟩ := exists_run_of_bind hr
    cases hd
    obtain ⟨⟨items, commas⟩, us, hi, hr⟩ := exists_run_of_bind hr
    obtain ⟨closing, vs, hc, hr⟩ := exists_run_of_bind hr
    obtain ⟨j, us, rfl, rfl, ⟨⟩⟩ := run_takeMark_eq_ok.1 hc
    cases hr
    rw [Ty.argumentsTokens, List.append_assoc, List.append_assoc]
    exact (congrArg (ts.take i ++ ·) (h.items hi)).trans (List.take_append_drop i ts)
  · cases hr
    rfl

theorem readItems (h : TyWritten n) {x : List (TyArgument Ty) × List Token}
    (hr : (readItems (n + 1)).run ⟨ts, s⟩ = .ok (x, ⟨rest, none⟩)) :
    Ty.itemsTokens x.1 x.2 ++ rest = ts := by
  rw [Declaration.readItems, run_peek_bind] at hr
  split at hr
  · cases hr
    rfl
  obtain ⟨a, us, ha, hr⟩ := exists_run_of_bind hr
  rw [run_peek_bind] at hr
  split at hr
  · cases hr
    rw [← h.argument ha, Ty.itemsTokens, Ty.itemsTokens, List.append_nil]
  obtain ⟨comma, vs, hc, hrest⟩ := exists_run_of_bind hr
  obtain ⟨⟨as, cs⟩, ws, hi, hp⟩ := exists_run_of_bind hrest
  obtain ⟨j, us, rfl, rfl, ⟨⟩⟩ := run_takeMark_eq_ok.1 hc
  cases hp
  rw [← h.argument ha, ← h.items hi, Ty.itemsTokens]
  simp only [List.append_assoc, List.cons_append]

theorem readArgument (h : TyWritten n) {a : TyArgument Ty}
    (hr : (readArgument (n + 1)).run ⟨ts, s⟩ = .ok (a, ⟨rest, none⟩)) :
    Ty.argumentTokens a ++ rest = ts := by
  rw [Declaration.readArgument, run_peek_bind] at hr
  dsimp only at hr
  split at hr
  · obtain ⟨_, us, hd, hr⟩ := exists_run_of_bind hr
    cases hd
    cases hr
    exact List.take_append_drop 1 ts
  split at hr
  · obtain ⟨x, us, hc, hr⟩ := exists_run_of_bind hr
    cases hr
    exact consumed_append hc
  obtain ⟨⟨⟨u, more⟩, read⟩, us, hc, hr⟩ := exists_run_of_bind hr
  obtain ⟨hread, vs, hu, hb⟩ := run_consumed_pair hc
  cases more with
  | true =>
    cases hr
    exact hread
  | false =>
    cases hr
    obtain rfl := eq_of_run_readBinding hb
    exact h.ty hu

end TyWritten

/-- Types are written with the tokens that they are read from, in any number of steps. -/
theorem tyWritten (n : Nat) : TyWritten n := by
  induction n with
  | zero => constructor <;> intros <;> rename_i h <;> cases h
  | succ n ih =>
    exact
      { ty := ih.readTy
        grouped := ih.readGrouped
        content := ih.readContent
        pathTy := ih.readPathTy
        path := ih.readPath
        segments := ih.readSegments
        arguments := ih.readArguments
        items := ih.readItems
        argument := ih.readArgument }

/-! ### Closures -/

/-- A type stands in tokens, before those that are left of them. -/
def Ty.Stands (t : Ty) (ts rest : List Token) : Prop :=
  ∃ before after, ts = before ++ (t.tokens ++ (after ++ rest))

theorem Ty.Stands.mono {t : Ty} {ts us vs rest : List Token} (h : t.Stands us vs) (hu : us <:+ ts)
    (hv : rest <:+ vs) : t.Stands ts rest := by
  obtain ⟨before, after, rfl⟩ := h
  obtain ⟨first, rfl⟩ := hu
  obtain ⟨last, rfl⟩ := hv
  exact ⟨first ++ before, after ++ last, by simp⟩

/-- Where `p` reads a closure, the types of its parameters stand in the tokens that are read. -/
structure Holds (p : Reader ExprForm) : Prop where
  stands : ∀ {ts s ps rest t}, p.run ⟨ts, s⟩ = .ok (.closure ps, ⟨rest, none⟩) → some t ∈ ps →
    t.Stands ts rest

/-- Where `p` gives a closure, it is the form that was read before. -/
structure Passes (form : ExprForm) (p : Reader ExprForm) : Prop where
  eq : ∀ {c ps c'}, p.run c = .ok (.closure ps, c') → form = .closure ps

namespace Holds

variable {α : Type} {p q : Reader ExprForm}

theorem bind {p : Reader α} {f : α → Reader ExprForm} (h : ∀ a, Holds (f a)) :
    Holds (p >>= f) where
  stands hr ht := by
    obtain ⟨a, us, hp, hf⟩ := exists_run_of_bind hr
    exact ((h a).stands hf ht).mono (p.suffix hp) (List.suffix_refl _)

theorem passed {f : ExprForm → Reader ExprForm} (hp : Holds p) (hf : ∀ form, Passes form (f form)) :
    Holds (p >>= f) where
  stands hr ht := by
    obtain ⟨form, us, h, hr⟩ := exists_run_of_bind hr
    obtain rfl := (hf form).eq hr
    exact (hp.stands h ht).mono (List.suffix_refl _) ((f _).suffix hr)

theorem ite {b : Bool} (hp : Holds p) (hq : Holds q) : Holds (if b then p else q) where
  stands hr ht := (run_ite_cases hr).elim (fun h => hp.stands h.2 ht) fun h => hq.stands h.2 ht

theorem refuse (what : String) : Holds (refuse what) where
  stands hr := by cases hr

theorem other : Holds (pure .other) where
  stands hr := by cases hr

theorem path : Holds (pure .path) where
  stands hr := by cases hr

theorem literal (l : Literal) : Holds (pure (.ofLiteral l)) where
  stands hr := by
    unfold ExprForm.ofLiteral at hr
    split at hr <;> cases hr

end Holds

namespace Passes

variable {α : Type} {form : ExprForm} {p q : Reader ExprForm}

theorem bind {p : Reader α} {f : α → Reader ExprForm} (h : ∀ a, Passes form (f a)) :
    Passes form (p >>= f) where
  eq hr := by
    obtain ⟨a, c, -, hf⟩ := run_bind_eq_ok.1 hr
    exact (h a).eq hf

theorem ite {b : Bool} (hp : Passes form p) (hq : Passes form q) :
    Passes form (if b then p else q) where
  eq hr := (run_ite_cases hr).elim (fun h => hp.eq h.2) fun h => hq.eq h.2

theorem pure (form : ExprForm) : Passes form (pure form) where
  eq hr := by
    cases hr
    rfl

theorem refuse (what : String) : Passes form (refuse what) where
  eq hr := by cases hr

/-- What passes on no closure passes on any form. -/
theorem of_other (h : Passes .other p) : Passes form p where
  eq hr := by cases h.eq hr

end Passes

/-- Where expressions are read in `n` steps, the types of closures stand in what is read. -/
structure ClosureWritten (n : Nat) : Prop where
  expr : ∀ records, Holds (readExpr records n)
  operands : ∀ records form, Passes form (readOperands records form n)
  unary : ∀ records, Holds (readUnary records n)
  trailers : ∀ form, Passes form (readTrailers form n)
  operand : ∀ records, Holds (readOperand records n)
  closure : ∀ records, Holds (readClosure records n)
  params : ∀ {ts s ps rest t}, (readParams n).run ⟨ts, s⟩ = .ok (ps, ⟨rest, none⟩) → some t ∈ ps →
    t.Stands ts rest

namespace ClosureWritten

variable {n : Nat}

theorem holds_readPathExpr (records : Bool) : Holds (readPathExpr records n) := by
  cases n with
  | zero => exact .refuse _
  | succ n =>
    exact .bind fun _ => .bind fun _ => .ite (.bind fun _ => .other)
      (.ite (.bind fun _ => .other) .path)

theorem holds_readKeyword (records : Bool) : Holds (readKeyword records n) := by
  cases n with
  | zero => exact .refuse _
  | succ n =>
    refine .bind fun ts => .ite ?_ (.ite ?_ (.ite ?_ (.ite ?_ (.ite ?_ (.refuse _)))))
    · exact .bind fun _ => .bind fun _ => .bind fun _ => .bind fun _ => .other
    · exact .bind fun _ => .bind fun _ => .bind fun _ => .bind fun _ => .bind fun _ => .other
    · exact .bind fun _ => .bind fun _ => .bind fun _ => .other
    · exact .bind fun _ => .bind fun _ => .bind fun _ => .bind fun _ => .other
    · exact .bind fun _ => .bind fun _ => .bind fun _ => .other

theorem readOperands (h : ClosureWritten n) (records : Bool) (form : ExprForm) :
    Passes form (readOperands records form (n + 1)) := by
  refine .bind fun ts => .ite ?_ (.ite ?_ ?_)
  · exact .bind fun _ => .bind fun _ => .of_other (h.operands _ _)
  · exact .bind fun _ => .bind fun _ => .of_other (h.operands _ _)
  · cases operatorLength? ts with
    | none => exact .pure form
    | some i => exact .bind fun _ => .bind fun _ => .of_other (h.operands _ _)

theorem readUnary (h : ClosureWritten n) (records : Bool) : Holds (readUnary records (n + 1)) := by
  refine .bind fun ts => .ite ?_ (.ite ?_ (.ite ?_ ?_))
  · exact .bind fun _ => h.unary records
  · exact .bind fun _ => .bind fun _ => .bind fun _ => .other
  · exact .bind fun _ => .bind fun _ => .other
  · exact .passed (h.operand records) h.trailers

theorem readTrailers (h : ClosureWritten n) (form : ExprForm) :
    Passes form (readTrailers form (n + 1)) := by
  refine .bind fun ts => .ite ?_ (.ite ?_ (.ite ?_ (.ite ?_ (.pure form))))
  · exact .bind fun _ => .of_other (h.trailers _)
  · exact .bind fun _ => .of_other (h.trailers _)
  · exact .bind fun _ => .of_other (h.trailers _)
  · exact .bind fun _ => .bind fun _ => .of_other (h.trailers _)

theorem readOperand (h : ClosureWritten n) (records : Bool) :
    Holds (readOperand records (n + 1)) := by
  refine .bind fun ts => .ite (h.closure records) (.ite (.bind .literal) (.ite ?_ (.ite ?_ (.ite ?_
    (.ite ?_ (.ite ?_ (.ite (holds_readPathExpr records) (holds_readKeyword records))))))))
  · exact .bind fun _ => .other
  · exact .bind fun _ => .other
  · exact .bind fun _ => .other
  · exact .bind fun _ => .bind fun _ => h.operand records
  · exact .bind fun _ => .bind fun _ => .other

theorem readClosure (h : ClosureWritten n) (records : Bool) :
    Holds (readClosure records (n + 1)) := by
  refine .bind fun _ => .bind fun _ => .bind fun _ => ⟨fun hr ht => ?_⟩
  obtain ⟨params, us, hp, hr⟩ := exists_run_of_bind hr
  obtain ⟨_, vs, hm, hr⟩ := exists_run_of_bind hr
  obtain ⟨_, ws, hb, hr⟩ := exists_run_of_bind hr
  cases hr
  exact (h.params hp ht).mono (List.suffix_refl _)
    ((Reader.suffix _ hb).trans (Reader.suffix _ hm))

theorem stands_of_readParameterTy {ts rest : List Token} {s : Option Delimiter} {t : Ty}
    (hr : (readParameterTy n).run ⟨ts, s⟩ = .ok (some t, ⟨rest, none⟩)) : t.Stands ts rest := by
  cases n with
  | zero => cases hr
  | succ n =>
    rw [readParameterTy, run_peek_bind] at hr
    rcases run_ite_cases hr with ⟨-, hr⟩ | ⟨-, hr⟩
    · obtain ⟨_, us, ha, hr⟩ := exists_run_of_bind hr
      obtain ⟨u, vs, ht, hr⟩ := exists_run_of_bind hr
      cases hr
      exact Ty.Stands.mono ⟨[], [], ((tyWritten n).ty ht).symm⟩ (Reader.suffix _ ha)
        (List.suffix_refl _)
    · cases hr

theorem readParams (h : ClosureWritten n) {ts rest : List Token} {s : Option Delimiter}
    {ps : List (Option Ty)} {t : Ty}
    (hr : (readParams (n + 1)).run ⟨ts, s⟩ = .ok (ps, ⟨rest, none⟩)) (ht : some t ∈ ps) :
    t.Stands ts rest := by
  rw [Declaration.readParams, run_peek_bind] at hr
  rcases run_ite_cases hr with ⟨-, hr⟩ | ⟨-, hr⟩
  · cases hr
    cases ht
  rcases run_ite_cases hr with ⟨-, hr⟩ | ⟨-, hr⟩
  · obtain ⟨_, us, ha, hr⟩ := exists_run_of_bind hr
    exact (h.params hr ht).mono (Reader.suffix _ ha) (List.suffix_refl _)
  obtain ⟨_, us, hp, hr⟩ := exists_run_of_bind hr
  obtain ⟨u, vs, hu, hr⟩ := exists_run_of_bind hr
  have hsuffix := Reader.suffix _ hp
  rw [run_peek_bind] at hr
  rcases run_ite_cases hr with ⟨-, hr⟩ | ⟨-, hr⟩
  · cases hr
    cases List.mem_singleton.1 ht
    exact (stands_of_readParameterTy hu).mono hsuffix (List.suffix_refl _)
  · obtain ⟨_, ws, hm, hrest⟩ := exists_run_of_bind hr
    obtain ⟨us, xs, hq, hlast⟩ := exists_run_of_bind hrest
    cases hlast
    rcases List.mem_cons.1 ht with rfl | ht
    · exact (stands_of_readParameterTy hu).mono hsuffix
        ((Reader.suffix _ hq).trans (Reader.suffix _ hm))
    · exact (h.params hq ht).mono
        (((Reader.suffix _ hm).trans (Reader.suffix _ hu)).trans hsuffix) (List.suffix_refl _)

end ClosureWritten

/-- The types of closures stand in what is read, in any number of steps. -/
theorem closureWritten (n : Nat) : ClosureWritten n := by
  induction n with
  | zero =>
    constructor
    case params =>
      intro ts s ps rest t hr
      cases hr
    all_goals
      intros
      exact .refuse _
  | succ n ih =>
    exact
      { expr := fun records => .passed (ih.unary records) (ih.operands records)
        operands := ih.readOperands
        unary := ih.readUnary
        trailers := ih.readTrailers
        operand := ih.readOperand
        closure := ih.readClosure
        params := ih.readParams }

end RestDispatch.Declaration
