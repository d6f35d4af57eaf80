import RestDispatch.Declaration.Entry
import RestDispatch.Proofs.Declaration.Extension

/-!
# Keys and their values

What the tokens of a key with its value are, said without a reader: `KeyEntry`, in which types and
expressions are what the grammar reads. `run_readEntry_eq_ok` says that this is what is read for a
key. The laws of a grammar are stated in `LawfulGrammar`; by these, `keyEntry_append_iff` says that
a value does not depend on what stands behind the comma after it, and `KeyEntry.exists_written` that
it is written as it was read.
-/

namespace RestDispatch.Declaration

open Token Reader

variable [Grammar]

/-! ### Types and expressions -/

/-- Tokens that begin with a type, and those after it. -/
def IsTy (ts : List Token) (t : Ty) (rest : List Token) : Prop :=
  Grammar.ty.run ⟨ts, none⟩ = .ok (t, ⟨rest, none⟩)

/-- Tokens that begin with an expression, and those after it. -/
def IsExpr (ts : List Token) (e : Expr) (rest : List Token) : Prop :=
  Grammar.expr.run ⟨ts, none⟩ = .ok (e, ⟨rest, none⟩)

/-- The laws of a grammar. What is read is the same alone and before a comma, whatever follows the
comma; a type and an expression are written with the tokens that they were read from; and the types
of a closure's parameters stand in the closure. -/
class LawfulGrammar : Prop where
  ty_append_iff {tail ts rest : List Token} {s s' : Option Delimiter} {t : Ty} :
    Trailing tail → (Grammar.ty.run ⟨ts ++ tail, s⟩ = .ok (t, ⟨rest ++ tail, s'⟩) ↔
      Grammar.ty.run ⟨ts, s⟩ = .ok (t, ⟨rest, s'⟩))
  expr_append_iff {tail ts rest : List Token} {s s' : Option Delimiter} {e : Expr} :
    Trailing tail → (Grammar.expr.run ⟨ts ++ tail, s⟩ = .ok (e, ⟨rest ++ tail, s'⟩) ↔
      Grammar.expr.run ⟨ts, s⟩ = .ok (e, ⟨rest, s'⟩))
  ty_tokens {ts rest : List Token} {t : Ty} : IsTy ts t rest → t.tokens ++ rest = ts
  expr_tokens {ts rest : List Token} {e : Expr} : IsExpr ts e rest → e.tokens ++ rest = ts
  closure_tokens {ts rest : List Token} {e : Expr} {ps : List (Option Ty)} {t : Ty} :
    IsExpr ts e rest → e.form = .closure ps → some t ∈ ps → t.tokens <:+: e.tokens

/-- A group with tokens left over before a type is told after it. -/
theorem run_ty_eq_ok {ts rest : List Token} {t : Ty} {s : Option Delimiter} :
    Grammar.ty.run ⟨ts, s⟩ = .ok (t, ⟨rest, none⟩) ↔ s = none ∧ IsTy ts t rest := by
  constructor
  · intro h
    obtain rfl : s = none := Grammar.ty.stray h rfl
    exact ⟨rfl, h⟩
  · rintro ⟨rfl, h⟩
    exact h

/-- A group with tokens left over before an expression is told after it. -/
theorem run_expr_eq_ok {ts rest : List Token} {e : Expr} {s : Option Delimiter} :
    Grammar.expr.run ⟨ts, s⟩ = .ok (e, ⟨rest, none⟩) ↔ s = none ∧ IsExpr ts e rest := by
  constructor
  · intro h
    obtain rfl : s = none := Grammar.expr.stray h rfl
    exact ⟨rfl, h⟩
  · rintro ⟨rfl, h⟩
    exact h

theorem IsTy.suffix {ts rest : List Token} {t : Ty} (h : IsTy ts t rest) : rest <:+ ts :=
  Grammar.ty.suffix h

theorem IsExpr.suffix {ts rest : List Token} {e : Expr} (h : IsExpr ts e rest) : rest <:+ ts :=
  Grammar.expr.suffix h

/-! ### Keys and their values -/

/-- Tokens that begin with a key and its value, and those after them. -/
inductive KeyEntry : List Token → Entry → List Token → Prop
  | name (j : Bool) (src v : String) (rest : List Token) :
      KeyEntry (.word "name" :: .mark '=' j :: .literal src (.text v) :: rest)
        (.name ⟨v, .literal src (.text v)⟩) rest
  | method {w : String} (j : Bool) (rest : List Token) (hw : isName w = true) :
      KeyEntry (.word "method" :: .mark '=' j :: .word w :: rest) (.method w) rest
  | url {ts rest : List Token} {e : Expr} (j : Bool) (h : IsExpr ts e rest) :
      KeyEntry (.word "url" :: .mark '=' j :: ts) (.url e) rest
  | pathParams {ts rest : List Token} {t : Ty} (j : Bool) (h : IsTy ts t rest) :
      KeyEntry (.word "path_params" :: .mark '=' j :: ts) (.pathParams t) rest
  | queryParams {ts rest : List Token} {t : Ty} (j : Bool) (h : IsTy ts t rest) :
      KeyEntry (.word "query_params" :: .mark '=' j :: ts) (.queryParams t) rest
  | data {ts rest : List Token} {t : Ty} (j : Bool) (h : IsTy ts t rest) :
      KeyEntry (.word "data" :: .mark '=' j :: ts) (.data t) rest
  | response {w : String} {rest : List Token} (j : Bool) (hw : isName w = true)
      (h : startsWithGroup .parenthesis rest = false) :
      KeyEntry (.word "response" :: .mark '=' j :: .word w :: rest) (.response w none) rest
  | typedResponse {w : String} {content : List Token} {t : Ty} (j : Bool) (rest : List Token)
      (hw : isName w = true) (h : IsTy content t []) :
      KeyEntry (.word "response" :: .mark '=' j :: .word w :: .group .parenthesis content :: rest)
        (.response w (some t)) rest

theorem run_readResponseTy_eq_ok {ts rest : List Token} {t : Option Ty} {s : Option Delimiter} :
    readResponseTy.run ⟨ts, s⟩ = .ok (t, ⟨rest, none⟩) ↔
      s = none ∧
        ((t = none ∧ ts = rest ∧ startsWithGroup .parenthesis rest = false) ∨
          ∃ content u, t = some u ∧ ts = .group .parenthesis content :: rest ∧
            IsTy content u []) := by
  rw [readResponseTy, run_peek_bind]
  by_cases hg : startsWithGroup .parenthesis ts = true
  · rw [if_pos hg, run_bind_eq_ok]
    constructor
    · rintro ⟨u, c', hw, hr⟩
      cases hr
      obtain ⟨content, rfl, hp⟩ := run_within_eq_ok.1 hw
      obtain ⟨rfl, ht⟩ := run_ty_eq_ok.1 hp
      exact ⟨rfl, .inr ⟨content, u, rfl, rfl, ht⟩⟩
    · rintro ⟨rfl, ⟨-, rfl, hn⟩ | ⟨content, u, rfl, rfl, ht⟩⟩
      · rw [hg] at hn
        cases hn
      · exact ⟨u, _, run_within_eq_ok.2 ⟨content, rfl, run_ty_eq_ok.2 ⟨rfl, ht⟩⟩, rfl⟩
  · rw [if_neg hg]
    constructor
    · intro hr
      cases hr
      exact ⟨rfl, .inl ⟨rfl, rfl, Bool.eq_false_iff.2 hg⟩⟩
    · rintro ⟨rfl, ⟨rfl, rfl, -⟩ | ⟨content, u, rfl, rfl, ht⟩⟩
      · rfl
      · exact absurd rfl hg

theorem run_readResponse_eq_ok {ts rest : List Token} {e : Entry} {s : Option Delimiter} :
    readResponse.run ⟨ts, s⟩ = .ok (e, ⟨rest, none⟩) ↔
      s = none ∧ ∃ w us, ts = .word w :: us ∧ isName w = true ∧
        ((e = .response w none ∧ us = rest ∧ startsWithGroup .parenthesis rest = false) ∨
          ∃ content u, e = .response w (some u) ∧ us = .group .parenthesis content :: rest ∧
            IsTy content u []) := by
  rw [readResponse, run_bind_eq_ok]
  constructor
  · rintro ⟨w, _, hn, hr⟩
    obtain ⟨us, rfl, hw, rfl⟩ := run_name_eq_ok.1 hn
    obtain ⟨t, ht, rfl⟩ := run_map_eq_ok.1 hr
    obtain ⟨rfl, ⟨rfl, rfl, hg⟩ | ⟨content, u, rfl, rfl, hu⟩⟩ := run_readResponseTy_eq_ok.1 ht
    · exact ⟨rfl, w, us, rfl, hw, .inl ⟨rfl, rfl, hg⟩⟩
    · exact ⟨rfl, w, _, rfl, hw, .inr ⟨content, u, rfl, rfl, hu⟩⟩
  · rintro ⟨rfl, w, us, rfl, hw, ⟨rfl, rfl, hg⟩ | ⟨content, u, rfl, rfl, hu⟩⟩
    · refine ⟨w, _, run_name_eq_ok.2 ⟨us, rfl, hw, rfl⟩, run_map_eq_ok.2 ⟨none, ?_, rfl⟩⟩
      exact run_readResponseTy_eq_ok.2 ⟨rfl, .inl ⟨rfl, rfl, hg⟩⟩
    · refine ⟨w, _, run_name_eq_ok.2 ⟨_, rfl, hw, rfl⟩, run_map_eq_ok.2 ⟨some u, ?_, rfl⟩⟩
      exact run_readResponseTy_eq_ok.2 ⟨rfl, .inr ⟨content, u, rfl, rfl, hu⟩⟩

/-- The value of a key is a type. -/
theorem run_markedTy_eq_ok {f : Ty → Entry} {ts rest : List Token} {e : Entry}
    {s : Option Delimiter} :
    (do mark '='; let t ← Grammar.ty; return f t).run ⟨ts, s⟩ = .ok (e, ⟨rest, none⟩) ↔
      s = none ∧ ∃ j us t, ts = .mark '=' j :: us ∧ IsTy us t rest ∧ e = f t := by
  rw [run_marked_eq_ok]
  constructor
  · rintro ⟨j, us, rfl, h⟩
    obtain ⟨t, hr, rfl⟩ := run_map_eq_ok.1 h
    obtain ⟨hs, ht⟩ := run_ty_eq_ok.1 hr
    exact ⟨hs, j, us, t, rfl, ht, rfl⟩
  · rintro ⟨rfl, j, us, t, rfl, ht, rfl⟩
    exact ⟨j, us, rfl, run_map_eq_ok.2 ⟨t, run_ty_eq_ok.2 ⟨rfl, ht⟩, rfl⟩⟩

/-- What is read for a key is its value in the grammar. -/
theorem run_readEntry_eq_ok {key : String} {ts rest : List Token} {e : Entry}
    {s : Option Delimiter} :
    (readEntry key).run ⟨ts, s⟩ = .ok (e, ⟨rest, none⟩) ↔
      s = none ∧ KeyEntry (.word key :: ts) e rest := by
  constructor
  · intro h
    unfold readEntry at h
    split at h
    · obtain ⟨j, us, rfl, h⟩ := run_marked_eq_ok.1 h
      obtain ⟨l, hl, rfl⟩ := run_map_eq_ok.1 h
      obtain ⟨src, v, _, rfl, rfl, ⟨⟩⟩ := run_text_eq_ok.1 hl
      exact ⟨rfl, .name j src v rest⟩
    · obtain ⟨j, us, rfl, h⟩ := run_marked_eq_ok.1 h
      obtain ⟨w, hw, rfl⟩ := run_map_eq_ok.1 h
      obtain ⟨_, rfl, hn, ⟨⟩⟩ := run_name_eq_ok.1 hw
      exact ⟨rfl, .method j rest hn⟩
    · obtain ⟨j, us, rfl, h⟩ := run_marked_eq_ok.1 h
      obtain ⟨e, he, rfl⟩ := run_map_eq_ok.1 h
      obtain ⟨rfl, he⟩ := run_expr_eq_ok.1 he
      exact ⟨rfl, .url j he⟩
    · obtain ⟨rfl, j, us, t, rfl, ht, rfl⟩ := run_markedTy_eq_ok.1 h
      exact ⟨rfl, .pathParams j ht⟩
    · obtain ⟨rfl, j, us, t, rfl, ht, rfl⟩ := run_markedTy_eq_ok.1 h
      exact ⟨rfl, .queryParams j ht⟩
    · obtain ⟨rfl, j, us, t, rfl, ht, rfl⟩ := run_markedTy_eq_ok.1 h
      exact ⟨rfl, .data j ht⟩
    · obtain ⟨j, us, rfl, h⟩ := run_marked_eq_ok.1 h
      obtain ⟨rfl, w, _, rfl, hw, ⟨rfl, rfl, hg⟩ | ⟨content, u, rfl, rfl, hu⟩⟩ :=
        run_readResponse_eq_ok.1 h
      · exact ⟨rfl, .response j hw hg⟩
      · exact ⟨rfl, .typedResponse j rest hw hu⟩
    · cases h
  · rintro ⟨rfl, h⟩
    cases h with
    | name j src v => rfl
    | method j _ hw =>
      refine run_marked_eq_ok.2 ⟨j, _, rfl, run_map_eq_ok.2 ⟨_, ?_, rfl⟩⟩
      exact run_name_eq_ok.2 ⟨_, rfl, hw, rfl⟩
    | url j he =>
      refine run_marked_eq_ok.2 ⟨j, _, rfl, run_map_eq_ok.2 ⟨_, ?_, rfl⟩⟩
      exact run_expr_eq_ok.2 ⟨rfl, he⟩
    | pathParams j ht => exact run_markedTy_eq_ok.2 ⟨rfl, j, _, _, rfl, ht, rfl⟩
    | queryParams j ht => exact run_markedTy_eq_ok.2 ⟨rfl, j, _, _, rfl, ht, rfl⟩
    | data j ht => exact run_markedTy_eq_ok.2 ⟨rfl, j, _, _, rfl, ht, rfl⟩
    | response j hw hg =>
      refine run_marked_eq_ok.2 ⟨j, _, rfl, ?_⟩
      exact run_readResponse_eq_ok.2 ⟨rfl, _, _, rfl, hw, .inl ⟨rfl, rfl, hg⟩⟩
    | typedResponse j _ hw ht =>
      refine run_marked_eq_ok.2 ⟨j, _, rfl, ?_⟩
      exact run_readResponse_eq_ok.2 ⟨rfl, _, _, rfl, hw, .inr ⟨_, _, rfl, rfl, ht⟩⟩

theorem KeyEntry.weight_lt {ts rest : List Token} {e : Entry} (h : KeyEntry ts e rest) :
    weightOfList rest < weightOfList ts := by
  cases h with
  | name | method | response | typedResponse => simp [weight]; omega
  | url j h | pathParams j h | queryParams j h | data j h =>
    have hw := weightOfList_le_of_suffix h.suffix
    simp only [weightOfList_cons, weight]
    omega

theorem KeyEntry.suffix {ts rest : List Token} {e : Entry} (h : KeyEntry ts e rest) :
    rest <:+ ts := by
  cases ts with
  | nil => cases h
  | cons t ts =>
    cases t with
    | word key =>
      have hr := run_readEntry_eq_ok.2 ⟨rfl, h⟩
      exact ((readEntry key).suffix hr).trans (List.suffix_cons _ _)
    | _ => cases h

/-! ### Values as they are written -/

/-- The word of the key of an entry, and the tokens of its value. -/
def Entry.written? : Entry → Option (String × List Token)
  | .name v => some ("name", [v.token])
  | .method w => some ("method", [.word w])
  | .url e => some ("url", e.tokens)
  | .pathParams t => some ("path_params", t.tokens)
  | .queryParams t => some ("query_params", t.tokens)
  | .data t => some ("data", t.tokens)
  | .response w none => some ("response", [.word w])
  | .response w (some t) => some ("response", [.word w, .group .parenthesis t.tokens])
  | .defaultQuery _ _ => none
  | .malformed _ => none

/-- A key and its value are written as they were read. -/
theorem KeyEntry.exists_written [LawfulGrammar] {ts rest : List Token} {e : Entry}
    (h : KeyEntry ts e rest) : ∃ key value j, e.written? = some (key, value) ∧
      ts = .word key :: .mark '=' j :: (value ++ rest) := by
  cases h with
  | name j src v => exact ⟨_, _, j, rfl, rfl⟩
  | method j | response j => exact ⟨_, _, j, rfl, rfl⟩
  | url j h => exact ⟨_, _, j, rfl, by rw [LawfulGrammar.expr_tokens h]⟩
  | pathParams j h | queryParams j h | data j h =>
    exact ⟨_, _, j, rfl, by rw [LawfulGrammar.ty_tokens h]⟩
  | typedResponse j _ hw h =>
    have ht := LawfulGrammar.ty_tokens h
    rw [List.append_nil] at ht
    exact ⟨_, _, j, rfl, by rw [ht]; rfl⟩

/-! ### Keys before more tokens -/

section Tail

variable [LawfulGrammar] {ts rest tail : List Token}

theorem Agrees.ty (ht : Trailing tail) : Extends tail 0 ts Grammar.ty Grammar.ty :=
  .of_append_iff (LawfulGrammar.ty_append_iff ht)

theorem Agrees.expr (ht : Trailing tail) : Extends tail 0 ts Grammar.expr Grammar.expr :=
  .of_append_iff (LawfulGrammar.expr_append_iff ht)

theorem Agrees.responseTy (ht : Trailing tail) :
    Extends tail 0 ts readResponseTy readResponseTy := by
  refine .peek (.ite (startsWith_append (fun _ => rfl) ht) (fun _ => ?_) fun _ => .pure _)
  refine .bind (k := 0) (.mono (.within _ fun content _ => ?_) (by omega)) fun _ _ _ => .pure _
  exact .ty .nil

theorem Agrees.entry (ht : Trailing tail) (key : String) :
    Extends tail 0 ts (readEntry key) (readEntry key) := by
  unfold readEntry
  split
  · exact .bind (.mark '=') fun _ _ _ => .bind .text fun _ _ _ => .pure _
  · exact .bind (.mark '=') fun _ _ _ => .bind .name fun _ _ _ => .pure _
  · exact .bind (.mark '=') fun _ _ _ => .bind (.expr ht) fun _ _ _ => .pure _
  · exact .bind (.mark '=') fun _ _ _ => .bind (.ty ht) fun _ _ _ => .pure _
  · exact .bind (.mark '=') fun _ _ _ => .bind (.ty ht) fun _ _ _ => .pure _
  · exact .bind (.mark '=') fun _ _ _ => .bind (.ty ht) fun _ _ _ => .pure _
  · refine .bind (.mark '=') fun _ _ _ => .bind .name fun _ _ _ => ?_
    exact .bind (.responseTy ht) fun _ _ _ => .pure _
  · exact .throw _

/-- A key with its value is the same alone and before a comma. -/
theorem keyEntry_append_iff {e : Entry} (ht : Trailing tail) :
    KeyEntry (ts ++ tail) e (rest ++ tail) ↔ KeyEntry ts e rest := by
  cases ts with
  | nil =>
    constructor
    · intro h
      cases ht <;> cases h
    · intro h
      cases h
  | cons t ts =>
    cases t with
    | word key =>
      have hr : Extends tail 0 ts (readEntry key) (readEntry key) := .entry ht key
      constructor
      · intro h
        have h := (hr.restrict (run_readEntry_eq_ok.2 ⟨rfl, h⟩)).2
        exact (run_readEntry_eq_ok.1 h).2
      · intro h
        have h := (hr.extend (run_readEntry_eq_ok.2 ⟨rfl, h⟩)).2
        exact (run_readEntry_eq_ok.1 h).2
    | _ =>
      constructor
      · intro h
        cases h
      · intro h
        cases h

end Tail

end RestDispatch.Declaration
