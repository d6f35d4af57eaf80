import RestDispatch.Declaration.Cursor

/-!
# What readers read

Inversions of the operations that readers are made of, and of the readers of single tokens: what the
tokens are where a reader gives a result, and which of them it leaves.
-/

namespace RestDispatch.Declaration

/-! ### Heads of lists of tokens -/

section Heads

variable {ts : List Token}

theorem startsWith_iff {p : Token → Bool} :
    startsWith p ts = true ↔ ∃ t rest, ts = t :: rest ∧ p t = true := by
  cases ts with
  | nil => simp [startsWith]
  | cons t ts => simp [startsWith]

theorem startsWithMark_iff {c : Char} :
    startsWithMark c ts = true ↔ ∃ j rest, ts = .mark c j :: rest := by
  constructor
  · intro h
    match ts, h with
    | .mark d j :: rest, h => exact ⟨j, rest, by rw [beq_iff_eq.1 h]⟩
  · rintro ⟨j, rest, rfl⟩
    exact beq_self_eq_true c

theorem startsWithWord_iff {w : String} :
    startsWithWord w ts = true ↔ ∃ rest, ts = .word w :: rest := by
  constructor
  · intro h
    match ts, h with
    | .word v :: rest, h => exact ⟨rest, by rw [beq_iff_eq.1 h]⟩
  · rintro ⟨rest, rfl⟩
    exact beq_self_eq_true w

theorem startsWithGroup_iff {d : Delimiter} :
    startsWithGroup d ts = true ↔ ∃ content rest, ts = .group d content :: rest := by
  constructor
  · intro h
    match ts, h with
    | .group e content :: rest, h => exact ⟨content, rest, by rw [beq_iff_eq.1 h]⟩
  · rintro ⟨j, rest, rfl⟩
    exact beq_self_eq_true d

end Heads

namespace Reader

variable {α β : Type}

/-! ### Operations -/

@[simp] theorem run_pure (a : α) (c : Cursor) : (pure a : Reader α).run c = .ok (a, c) := rfl

@[simp] theorem run_throw (f : DeclarationFault) (c : Cursor) :
    (throw f : Reader α).run c = .error f := rfl

@[simp] theorem run_peek_bind (f : List Token → Reader α) (c : Cursor) :
    (peek >>= f).run c = (f c.tokens).run c := rfl

@[simp] theorem run_refuse (what : String) (c : Cursor) :
    (refuse what : Reader α).run c = .error (.expected what c.tokens.isEmpty) := rfl

@[simp] theorem run_replace (f : List Token → List Token) (h : ∀ ts, f ts <:+ ts) (c : Cursor) :
    (replace f h).run c = .ok ((), ⟨f c.tokens, c.stray⟩) := rfl

@[simp] theorem run_advance (n : Nat) (c : Cursor) :
    (advance n).run c = .ok ((), ⟨c.tokens.drop n, c.stray⟩) := rfl

/-- A reader that goes on with another reads if both do. -/
theorem run_bind_eq_ok {p : Reader α} {f : α → Reader β} {c : Cursor} {x : β × Cursor} :
    (p >>= f).run c = .ok x ↔ ∃ a c', p.run c = .ok (a, c') ∧ (f a).run c' = .ok x := by
  cases hp : p.run c with
  | error e =>
    have hr : (p >>= f).run c = .error e := by simp only [bind, hp]
    simp [hr]
  | ok y =>
    have hr : (p >>= f).run c = (f y.1).run y.2 := by simp only [bind, hp]
    rw [hr]
    constructor
    · intro h
      exact ⟨y.1, y.2, rfl, h⟩
    · rintro ⟨a, c', h, hf⟩
      cases h
      exact hf

theorem run_map_eq_ok {f : α → β} {p : Reader α} {b : β} {c c' : Cursor} :
    (do let a ← p; return f a).run c = .ok (b, c') ↔ ∃ a, p.run c = .ok (a, c') ∧ b = f a := by
  rw [run_bind_eq_ok]
  constructor
  · rintro ⟨a, _, hp, hr⟩
    cases hr
    exact ⟨a, hp, rfl⟩
  · rintro ⟨a, hp, rfl⟩
    exact ⟨a, c', hp, rfl⟩

theorem run_consumed_eq_ok {p : Reader α} {x : α × List Token} {c c' : Cursor} :
    (consumed p).run c = .ok (x, c') ↔ p.run c = .ok (x.1, c') ∧
      x.2 = c.tokens.take (c.tokens.length - c'.tokens.length) := by
  rw [consumed, run_peek_bind, run_bind_eq_ok]
  constructor
  · rintro ⟨a, c₁, hp, hr⟩
    cases hr
    exact ⟨hp, rfl⟩
  · rintro ⟨hp, hx⟩
    refine ⟨x.1, c', hp, ?_⟩
    rw [run_peek_bind, ← hx]
    rfl

/-- A group is read as far as the reader of its content goes. -/
theorem run_within_cases {p : Reader α} {d : Delimiter} {c : Cursor} {x : α × Cursor} :
    (within d p).run c = .ok x ↔ ∃ content rest inner, c.tokens = .group d content :: rest ∧
      p.run ⟨content, c.stray⟩ = .ok (x.1, inner) ∧
        x.2 = ⟨rest, inner.stray.or (if inner.tokens.isEmpty then none else some d)⟩ := by
  obtain ⟨ts, s⟩ := c
  constructor
  · intro h
    unfold within at h
    dsimp only at h
    split at h
    · next e content rest =>
      split at h
      · next he =>
        split at h
        · cases h
        · next hp =>
          cases h
          cases he
          exact ⟨content, rest, _, rfl, hp, rfl⟩
      · cases h
    · cases h
  · rintro ⟨content, rest, inner, hc, hp, hx⟩
    obtain ⟨a, c'⟩ := x
    dsimp only at hc hp hx
    subst hc hx
    change (if d = d then _ else _) = _
    rw [if_pos rfl, hp]

/-- A group is read to its end, unless tokens are left over in it. -/
theorem run_within_eq_ok {p : Reader α} {d : Delimiter} {a : α} {ts rest : List Token}
    {s : Option Delimiter} : (within d p).run ⟨ts, s⟩ = .ok (a, ⟨rest, none⟩) ↔
      ∃ content, ts = .group d content :: rest ∧ p.run ⟨content, s⟩ = .ok (a, ⟨[], none⟩) := by
  rw [run_within_cases]
  constructor
  · rintro ⟨content, us, ⟨inner, s'⟩, rfl, hp, hx⟩
    simp only [Cursor.mk.injEq, eq_comm (a := (none : Option Delimiter)), Option.or_eq_none_iff,
      ite_eq_left_iff, reduceCtorEq, imp_false, Classical.not_not, List.isEmpty_iff] at hx
    obtain ⟨rfl, rfl, rfl⟩ := hx
    exact ⟨content, rfl, hp⟩
  · rintro ⟨content, rfl, hp⟩
    exact ⟨content, rest, _, rfl, hp, rfl⟩

/-! ### Single tokens -/

/-- A reader of one token that is known by a test. -/
theorem run_guarded_eq_ok {p : Token → Bool} {q : Reader Unit} {c : Cursor} {x : Unit × Cursor}
    (hq : ∀ c, ∃ f, q.run c = .error f) :
    (do if startsWith p (← peek) then advance 1 else q : Reader Unit).run c = .ok x ↔
      ∃ t rest, c.tokens = t :: rest ∧ p t = true ∧ x.2 = ⟨rest, c.stray⟩ := by
  rw [run_peek_bind]
  constructor
  · intro h
    split at h
    · next hs =>
      obtain ⟨t, rest, hc, ht⟩ := startsWith_iff.1 hs
      rw [run_advance, hc] at h
      cases h
      exact ⟨t, rest, hc, ht, rfl⟩
    · obtain ⟨f, hf⟩ := hq c
      cases hf.symm.trans h
  · rintro ⟨t, rest, hc, ht, hx⟩
    obtain ⟨u, c'⟩ := x
    cases hx
    rw [if_pos (startsWith_iff.2 ⟨t, rest, hc, ht⟩), run_advance, hc]
    rfl

variable {ts : List Token} {s : Option Delimiter} {c' : Cursor}

theorem run_mark_eq_ok {c : Char} {u : Unit} :
    (mark c).run ⟨ts, s⟩ = .ok (u, c') ↔ ∃ j rest, ts = .mark c j :: rest ∧ c' = ⟨rest, s⟩ := by
  rw [mark, run_guarded_eq_ok fun _ => ⟨_, rfl⟩]
  constructor
  · rintro ⟨t, rest, rfl, ht, hc⟩
    obtain ⟨j, _, ⟨⟩⟩ := startsWithMark_iff.1 (startsWith_iff.2 ⟨t, rest, rfl, ht⟩)
    exact ⟨j, rest, rfl, hc⟩
  · rintro ⟨j, rest, rfl, hc⟩
    exact ⟨_, rest, rfl, beq_self_eq_true c, hc⟩

theorem run_skipWord_eq_ok {w : String} {u : Unit} :
    (skipWord w).run ⟨ts, s⟩ = .ok (u, c') ↔ ∃ rest, ts = .word w :: rest ∧ c' = ⟨rest, s⟩ := by
  rw [skipWord, run_guarded_eq_ok fun _ => ⟨_, rfl⟩]
  constructor
  · rintro ⟨t, rest, rfl, ht, hc⟩
    obtain ⟨_, ⟨⟩⟩ := startsWithWord_iff.1 (startsWith_iff.2 ⟨t, rest, rfl, ht⟩)
    exact ⟨rest, rfl, hc⟩
  · rintro ⟨rest, rfl, hc⟩
    exact ⟨_, rest, rfl, beq_self_eq_true w, hc⟩

theorem run_skipGroup_eq_ok {d : Delimiter} {u : Unit} :
    (skipGroup d).run ⟨ts, s⟩ = .ok (u, c') ↔
      ∃ content rest, ts = .group d content :: rest ∧ c' = ⟨rest, s⟩ := by
  rw [skipGroup, run_guarded_eq_ok fun _ => ⟨_, rfl⟩]
  constructor
  · rintro ⟨t, rest, rfl, ht, hc⟩
    obtain ⟨content, _, ⟨⟩⟩ := startsWithGroup_iff.1 (startsWith_iff.2 ⟨t, rest, rfl, ht⟩)
    exact ⟨content, rest, rfl, hc⟩
  · rintro ⟨content, rest, rfl, hc⟩
    exact ⟨_, rest, rfl, beq_self_eq_true d, hc⟩

/-- A value after a mark. -/
theorem run_marked_eq_ok {c : Char} {p : Reader α} {x : α × Cursor} :
    (do mark c; p).run ⟨ts, s⟩ = .ok x ↔
      ∃ j us, ts = .mark c j :: us ∧ p.run ⟨us, s⟩ = .ok x := by
  rw [run_bind_eq_ok]
  constructor
  · rintro ⟨_, _, hm, hp⟩
    obtain ⟨j, us, rfl, rfl⟩ := run_mark_eq_ok.1 hm
    exact ⟨j, us, rfl, hp⟩
  · rintro ⟨j, us, rfl, hp⟩
    exact ⟨(), _, run_mark_eq_ok.2 ⟨j, us, rfl, rfl⟩, hp⟩

theorem run_takeMark_eq_ok {c : Char} {t : Token} :
    (takeMark c).run ⟨ts, s⟩ = .ok (t, c') ↔
      ∃ j rest, ts = t :: rest ∧ t = .mark c j ∧ c' = ⟨rest, s⟩ := by
  rw [takeMark, run_peek_bind, run_marked_eq_ok]
  constructor
  · rintro ⟨j, us, rfl, hr⟩
    cases hr
    exact ⟨j, us, rfl, rfl, rfl⟩
  · rintro ⟨j, us, rfl, rfl, rfl⟩
    exact ⟨j, us, rfl, rfl⟩

theorem run_text_eq_ok {l : StringLiteral} :
    text.run ⟨ts, s⟩ = .ok (l, c') ↔
      ∃ src v rest, ts = .literal src (.text v) :: rest ∧ l = ⟨v, .literal src (.text v)⟩ ∧
        c' = ⟨rest, s⟩ := by
  constructor
  · intro h
    match ts, h with
    | .literal src (.text v) :: rest, h =>
      cases h
      exact ⟨src, v, rest, rfl, rfl, rfl⟩
  · rintro ⟨src, v, rest, rfl, rfl, rfl⟩
    rfl

theorem run_name_eq_ok {w : String} :
    name.run ⟨ts, s⟩ = .ok (w, c') ↔
      ∃ rest, ts = .word w :: rest ∧ isName w = true ∧ c' = ⟨rest, s⟩ := by
  have hword : ∀ v rest, name.run ⟨.word v :: rest, s⟩ =
      if isName v then .ok (v, ⟨rest, s⟩) else .error (.keywordAsName v) := by
    intro v rest
    rw [name, run_peek_bind]
    by_cases hn : isName v = true
    · rw [if_pos hn]
      dsimp only
      rw [if_pos hn]
      rfl
    · rw [if_neg hn]
      dsimp only
      rw [if_neg hn]
      rfl
  constructor
  · intro h
    match ts, h with
    | .word v :: rest, h =>
      rw [hword] at h
      split at h
      · next hn =>
        cases h
        exact ⟨rest, rfl, hn, rfl⟩
      · cases h
  · rintro ⟨rest, rfl, hn, rfl⟩
    rw [hword, if_pos hn]

end Reader

/-- Tokens that begin with a literal, and those after it. -/
inductive IsLiteral : List Token → Literal → List Token → Prop
  | literal (s : String) (k : LiteralKind) (rest : List Token) :
      IsLiteral (.literal s k :: rest) ⟨k, [.literal s k]⟩ rest
  | truth {w : String} {b : Bool} (rest : List Token) (h : truthOf? w = some b) :
      IsLiteral (.word w :: rest) ⟨.boolean b, [.word w]⟩ rest
  | signed {c : Char} {j : Bool} {s : String} {k k' : LiteralKind} (rest : List Token)
      (h : k.negatedBy? c = some k') :
      IsLiteral (.mark c j :: .literal s k :: rest) ⟨k', [.mark c j, .literal s k]⟩ rest

namespace Reader

variable {ts : List Token} {s : Option Delimiter} {c' : Cursor}

theorem run_literal_eq_ok {l : Literal} :
    literal.run ⟨ts, s⟩ = .ok (l, c') ↔ ∃ rest, IsLiteral ts l rest ∧ c' = ⟨rest, s⟩ := by
  constructor
  · intro h
    match ts, h with
    | .literal src k :: rest, h =>
      cases h
      exact ⟨rest, .literal src k rest, rfl⟩
    | .word w :: rest, h =>
      rw [literal, run_peek_bind] at h
      dsimp only at h
      cases hw : truthOf? w with
      | none =>
        rw [hw] at h
        cases h
      | some b =>
        rw [hw] at h
        cases h
        exact ⟨rest, .truth rest hw, rfl⟩
    | .mark c j :: .literal src k :: rest, h =>
      rw [literal, run_peek_bind] at h
      dsimp only at h
      cases hk : k.negatedBy? c with
      | none =>
        rw [hk] at h
        cases h
      | some k' =>
        rw [hk] at h
        cases h
        exact ⟨rest, .signed rest hk, rfl⟩
  · rintro ⟨rest, h, rfl⟩
    cases h with
    | literal src k => rfl
    | truth _ hw =>
      rw [literal, run_peek_bind]
      dsimp only
      rw [hw]
      rfl
    | signed _ hk =>
      rw [literal, run_peek_bind]
      dsimp only
      rw [hk]
      rfl

end Reader
end RestDispatch.Declaration
