import RestDispatch.Proofs.Declaration.Reading

/-!
# Readers and what stands behind their tokens

The value of a key ends before the comma behind it: what a reader makes of its tokens is the same
when a comma and more tokens follow them, and what it makes of tokens before a comma is the same
when they stand alone. `Extends tail k ts p q` says so of a reader `p` and of `q`, the same reader
with another number of steps, and that at least `k` tokens are read; `Steady` says it of a reader
with a bounded number of steps, for every number that is enough for the tokens. The operations that
readers are made of keep both.
-/

namespace RestDispatch.Declaration

/-! ### The weight of tokens -/

namespace Token

@[simp] theorem weightOfList_nil : weightOfList [] = 0 := rfl

@[simp] theorem weightOfList_cons (t : Token) (ts : List Token) :
    weightOfList (t :: ts) = t.weight + weightOfList ts := rfl

@[simp] theorem weight_group (d : Delimiter) (content : List Token) :
    (group d content).weight = weightOfList content + 2 := rfl

theorem one_le_weight (t : Token) : 1 ≤ t.weight := by
  cases t <;> simp [weight]

@[simp] theorem weightOfList_append (ts us : List Token) :
    weightOfList (ts ++ us) = weightOfList ts + weightOfList us := by
  induction ts with
  | nil => simp
  | cons t ts ih => simp [ih, Nat.add_assoc]

theorem weightOfList_drop {ts : List Token} {n : Nat} (h : n ≤ ts.length) :
    weightOfList (ts.drop n) + n ≤ weightOfList ts := by
  induction ts generalizing n with
  | nil => simpa using h
  | cons t ts ih =>
    cases n with
    | zero => simp
    | succ n =>
      have ht := t.one_le_weight
      have hd := ih (Nat.le_of_succ_le_succ h)
      simp only [List.drop_succ_cons, weightOfList_cons]
      omega

theorem weightOfList_le_of_suffix {us ts : List Token} (h : us <:+ ts) :
    weightOfList us ≤ weightOfList ts := by
  obtain ⟨read, rfl⟩ := h
  simp

end Token

open Token

/-! ### What comes next -/

/-- What may stand behind the value of a key: nothing, or a comma and anything after it. -/
inductive Trailing : List Token → Prop
  | nil : Trailing []
  | comma (joint : Bool) (ts : List Token) : Trailing (.mark ',' joint :: ts)

section Heads

variable {p : Token → Bool} {ts tail : List Token}

theorem startsWith_append (hp : ∀ j, p (.mark ',' j) = false) (ht : Trailing tail) :
    startsWith p (ts ++ tail) = startsWith p ts := by
  cases ts with
  | cons t ts => rfl
  | nil =>
    cases ht with
    | nil => rfl
    | comma j us => exact hp j

theorem startsWithPair_append {c d : Char} (hc : (',' == c) = false) (hd : (',' == d) = false)
    (ht : Trailing tail) : startsWithPair c d (ts ++ tail) = startsWithPair c d ts := by
  match ts, ht with
  | _, .nil => rw [List.append_nil]
  | [], .comma j us =>
    cases us with
    | nil => rfl
    | cons u us => cases u <;> simp [startsWithPair, hc]
  | [t], .comma j us => cases t <;> simp [startsWithPair, hd]
  | t :: u :: ts, .comma j us => cases t <;> cases u <;> rfl

theorem startsWith_drop_append {n : Nat} (hn : n ≤ ts.length) (hp : ∀ j, p (.mark ',' j) = false)
    (ht : Trailing tail) : startsWith p ((ts ++ tail).drop n) = startsWith p (ts.drop n) := by
  rw [List.drop_append_of_le_length hn, startsWith_append hp ht]

theorem length_of_startsWith (h : startsWith p ts = true) : 1 ≤ ts.length := by
  cases ts with
  | nil => cases h
  | cons t ts => simp

theorem length_of_startsWithPair {c d : Char} (h : startsWithPair c d ts = true) :
    2 ≤ ts.length := by
  match ts with
  | [] => cases h
  | [t] => cases t <;> cases h
  | _ :: _ :: _ => simp

theorem startsWithEach_append {ps : List (Token → Bool)}
    (hp : ∀ p ∈ ps, ∀ j, p (.mark ',' j) = false) (ht : Trailing tail) :
    startsWithEach ps (ts ++ tail) = startsWithEach ps ts := by
  induction ps generalizing ts with
  | nil => cases ts <;> cases tail <;> rfl
  | cons p ps ih =>
    obtain ⟨hp, hps⟩ := List.forall_mem_cons.1 hp
    cases ts with
    | cons t ts => exact congrArg (p t && ·) (ih hps)
    | nil =>
      cases ht with
      | nil => rfl
      | comma j us =>
        rw [List.nil_append, startsWithEach, startsWithEach, hp j]
        rfl

theorem length_of_startsWithEach {ps : List (Token → Bool)} (h : startsWithEach ps ts = true) :
    ps.length ≤ ts.length := by
  induction ps generalizing ts with
  | nil => exact Nat.zero_le _
  | cons p ps ih =>
    cases ts with
    | nil => cases h
    | cons t ts =>
      rw [startsWithEach, Bool.and_eq_true] at h
      exact Nat.succ_le_succ (ih h.2)

theorem dropWhile_append_trailing (hp : ∀ j, p (.mark ',' j) = false) (ht : Trailing tail) :
    (ts ++ tail).dropWhile p = ts.dropWhile p ++ tail := by
  induction ts with
  | cons t ts ih => by_cases h : p t = true <;> simp [h, ih]
  | nil =>
    cases ht with
    | nil => rfl
    | comma j us => simp [hp j]

end Heads

/-! ### What a reader does with more tokens -/

/-- Whatever `p` reads at the head of `ts`, at least `k` tokens of it, `q` reads at the head of `ts`
before `tail`. Whatever `p'` reads at the head of `ts` before `tail`, without a token of `tail`,
`q'` reads at the head of `ts`. The readers on either side are the same but for the tokens that they
have looked at. -/
structure Agrees {α : Type} (tail : List Token) (k : Nat) (ts : List Token)
    (p q p' q' : Reader α) : Prop where
  extend : ∀ {s a r s'}, p.run ⟨ts, s⟩ = .ok (a, ⟨r, s'⟩) →
    weightOfList r + k ≤ weightOfList ts ∧ q.run ⟨ts ++ tail, s⟩ = .ok (a, ⟨r ++ tail, s'⟩)
  restrict : ∀ {s a r s'}, p'.run ⟨ts ++ tail, s⟩ = .ok (a, ⟨r ++ tail, s'⟩) →
    weightOfList r + k ≤ weightOfList ts ∧ q'.run ⟨ts, s⟩ = .ok (a, ⟨r, s'⟩)

/-- What `p` reads at the head of `ts`, at least `k` tokens of it, `q` reads before `tail`, and the
other way round. -/
abbrev Extends {α : Type} (tail : List Token) (k : Nat) (ts : List Token) (p q : Reader α) : Prop :=
  Agrees tail k ts p q p q

open Reader

namespace Agrees

variable {α β : Type} {tail ts : List Token} {k l : Nat}

theorem mono {p q p' q' : Reader α} (h : Agrees tail k ts p q p' q') (hl : l ≤ k) :
    Agrees tail l ts p q p' q' where
  extend hp := by
    obtain ⟨hw, hq⟩ := h.extend hp
    exact ⟨by omega, hq⟩
  restrict hp := by
    obtain ⟨hw, hq⟩ := h.restrict hp
    exact ⟨by omega, hq⟩

/-- A reader of the same with more tokens and without them. -/
theorem of_append_iff {p : Reader α} (hp : ∀ {s a r s'},
    p.run ⟨ts ++ tail, s⟩ = .ok (a, ⟨r ++ tail, s'⟩) ↔ p.run ⟨ts, s⟩ = .ok (a, ⟨r, s'⟩)) :
    Extends tail 0 ts p p where
  extend h := ⟨weightOfList_le_of_suffix (p.suffix h), hp.2 h⟩
  restrict h := ⟨weightOfList_le_of_suffix (p.suffix (hp.1 h)), hp.1 h⟩

theorem pure (a : α) : Agrees tail 0 ts (pure a) (pure a) (pure a) (pure a) where
  extend h := by
    cases h
    exact ⟨Nat.le_refl _, rfl⟩
  restrict h := by
    simp only [run_pure, Except.ok.injEq, Prod.mk.injEq, Cursor.mk.injEq,
      List.append_cancel_right_eq] at h
    obtain ⟨rfl, rfl, rfl⟩ := h
    exact ⟨Nat.le_refl _, rfl⟩

/-- A reader that reads nothing is like any other. -/
theorem throw {q q' : Reader α} (f : DeclarationFault) :
    Agrees tail k ts (throw f) q (throw f) q' where
  extend h := nomatch h
  restrict h := nomatch h

theorem refuse {q q' : Reader α} (what : String) :
    Agrees tail k ts (refuse what) q (refuse what) q' where
  extend h := nomatch h
  restrict h := nomatch h

theorem bind {p q p' q' : Reader α} {f g f' g' : α → Reader β} (hp : Agrees tail k ts p q p' q')
    (hf : ∀ a r, weightOfList r + k ≤ weightOfList ts →
      Agrees tail (l - k) r (f a) (g a) (f' a) (g' a)) :
    Agrees tail l ts (p >>= f) (q >>= g) (p' >>= f') (q' >>= g') where
  extend h := by
    obtain ⟨a, ⟨r₁, s₁⟩, h₁, h₂⟩ := run_bind_eq_ok.1 h
    obtain ⟨hw₁, hq₁⟩ := hp.extend h₁
    obtain ⟨hw₂, hq₂⟩ := (hf a r₁ hw₁).extend h₂
    exact ⟨by omega, run_bind_eq_ok.2 ⟨a, _, hq₁, hq₂⟩⟩
  restrict h := by
    obtain ⟨a, ⟨r₁, s₁⟩, h₁, h₂⟩ := run_bind_eq_ok.1 h
    -- what the second reader leaves of the tail the first has left too
    obtain ⟨r₁, rfl⟩ := (List.suffix_append _ _).trans ((f' a).suffix h₂)
    obtain ⟨hw₁, hq₁⟩ := hp.restrict h₁
    obtain ⟨hw₂, hq₂⟩ := (hf a r₁ hw₁).restrict h₂
    exact ⟨by omega, run_bind_eq_ok.2 ⟨a, _, hq₁, hq₂⟩⟩

theorem peek {f g : List Token → Reader α}
    (h : Agrees tail k ts (f ts) (g (ts ++ tail)) (f (ts ++ tail)) (g ts)) :
    Extends tail k ts (peek >>= f) (peek >>= g) where
  extend hp := h.extend hp
  restrict hp := h.restrict hp

/-- A condition that more tokens do not change. -/
theorem ite {b b' : Bool} {p₁ q₁ p₁' q₁' p₂ q₂ p₂' q₂' : Reader α} (hb : b' = b)
    (ht : b = true → Agrees tail k ts p₁ q₁ p₁' q₁')
    (hf : b = false → Agrees tail k ts p₂ q₂ p₂' q₂') :
    Agrees tail k ts (if b then p₁ else p₂) (if b' then q₁ else q₂) (if b' then p₁' else p₂')
      (if b then q₁' else q₂') := by
  subst hb
  cases b' with
  | true => exact ht rfl
  | false => exact hf rfl

theorem replace {f : List Token → List Token} {h : ∀ ts, f ts <:+ ts}
    (hf : f (ts ++ tail) = f ts ++ tail) (hk : weightOfList (f ts) + k ≤ weightOfList ts) :
    Extends tail k ts (replace f h) (replace f h) where
  extend hp := by
    cases hp
    exact ⟨hk, by rw [run_replace, hf]⟩
  restrict hp := by
    simp only [run_replace, hf, Except.ok.injEq, Prod.mk.injEq, Cursor.mk.injEq,
      List.append_cancel_right_eq] at hp
    obtain ⟨-, rfl, rfl⟩ := hp
    exact ⟨hk, rfl⟩

theorem advance {n : Nat} (h : n ≤ ts.length) : Extends tail n ts (advance n) (advance n) :=
  replace (List.drop_append_of_le_length h) (weightOfList_drop h)

/-- The first token is passed over. -/
theorem advance_one {p : Token → Bool} (h : startsWith p ts = true) :
    Extends tail 1 ts (Reader.advance 1) (Reader.advance 1) :=
  advance (length_of_startsWith h)

theorem skipIf {p : Token → Bool} (hp : ∀ j, p (.mark ',' j) = false) (ht : Trailing tail) :
    Extends tail 0 ts (skipIf p) (skipIf p) :=
  peek <| ite (startsWith_append hp ht) (fun h => (advance_one h).mono (by omega)) fun _ => pure ()

/-- A reader that does not look beyond the tokens that it reads. -/
theorem of_reads {p : Reader α} (reads : List Token → α → Prop)
    (hp : ∀ {ts s a c}, p.run ⟨ts, s⟩ = .ok (a, c) ↔
      ∃ read rest, ts = read ++ rest ∧ reads read a ∧ c = ⟨rest, s⟩)
    (hk : ∀ {read a}, reads read a → k ≤ weightOfList read) : Extends tail k ts p p where
  extend h := by
    obtain ⟨read, rest, rfl, hr, hc⟩ := hp.1 h
    have := hk hr
    cases hc
    refine ⟨by rw [weightOfList_append]; omega, hp.2 ⟨read, _, ?_, hr, rfl⟩⟩
    exact List.append_assoc _ _ _
  restrict h := by
    obtain ⟨read, rest, ht, hr, hc⟩ := hp.1 h
    have := hk hr
    cases hc
    obtain rfl := List.append_cancel_right (ht.trans (List.append_assoc _ _ _).symm)
    exact ⟨by rw [weightOfList_append]; omega, hp.2 ⟨read, _, rfl, hr, rfl⟩⟩

/-- A reader of one token. -/
theorem of_reads_one {p : Reader α} (reads : Token → α → Prop)
    (hp : ∀ {ts s a c}, p.run ⟨ts, s⟩ = .ok (a, c) ↔
      ∃ t rest, ts = t :: rest ∧ reads t a ∧ c = ⟨rest, s⟩) : Extends tail 1 ts p p := by
  refine of_reads (fun read a => ∃ t, read = [t] ∧ reads t a) ?_ ?_
  · intro ts s a c
    rw [hp]
    constructor
    · rintro ⟨t, rest, ht, hr, hc⟩
      exact ⟨[t], rest, ht, ⟨t, rfl, hr⟩, hc⟩
    · rintro ⟨_, rest, ht, ⟨t, rfl, hr⟩, hc⟩
      exact ⟨t, rest, ht, hr, hc⟩
  · rintro _ a ⟨t, rfl, -⟩
    simpa using t.one_le_weight

theorem mark (c : Char) : Extends tail 1 ts (mark c) (mark c) := by
  refine of_reads_one (fun t _ => ∃ j, t = .mark c j) ?_
  intro ts s a c'
  rw [run_mark_eq_ok]
  constructor
  · rintro ⟨j, rest, rfl, rfl⟩
    exact ⟨_, rest, rfl, ⟨j, rfl⟩, rfl⟩
  · rintro ⟨_, rest, rfl, ⟨j, rfl⟩, rfl⟩
    exact ⟨j, rest, rfl, rfl⟩

theorem takeMark (c : Char) : Extends tail 1 ts (takeMark c) (takeMark c) := by
  refine of_reads_one (fun t a => t = a ∧ ∃ j, a = .mark c j) ?_
  intro ts s a c'
  rw [run_takeMark_eq_ok]
  constructor
  · rintro ⟨j, rest, rfl, ha, rfl⟩
    exact ⟨a, rest, rfl, ⟨rfl, j, ha⟩, rfl⟩
  · rintro ⟨_, rest, rfl, ⟨rfl, j, ha⟩, rfl⟩
    exact ⟨j, rest, rfl, ha, rfl⟩

theorem skipWord (w : String) : Extends tail 1 ts (skipWord w) (skipWord w) := by
  refine of_reads_one (fun t _ => t = .word w) ?_
  intro ts s a c'
  rw [run_skipWord_eq_ok]
  constructor
  · rintro ⟨rest, rfl, rfl⟩
    exact ⟨_, rest, rfl, rfl, rfl⟩
  · rintro ⟨_, rest, rfl, rfl, rfl⟩
    exact ⟨rest, rfl, rfl⟩

theorem skipGroup (d : Delimiter) : Extends tail 1 ts (skipGroup d) (skipGroup d) := by
  refine of_reads_one (fun t _ => ∃ content, t = .group d content) ?_
  intro ts s a c'
  rw [run_skipGroup_eq_ok]
  constructor
  · rintro ⟨content, rest, rfl, rfl⟩
    exact ⟨_, rest, rfl, ⟨content, rfl⟩, rfl⟩
  · rintro ⟨_, rest, rfl, ⟨content, rfl⟩, rfl⟩
    exact ⟨content, rest, rfl, rfl⟩

theorem name : Extends tail 1 ts name name := by
  refine of_reads_one (fun t a => t = .word a ∧ isName a = true) ?_
  intro ts s a c'
  rw [run_name_eq_ok]
  constructor
  · rintro ⟨rest, rfl, ha, rfl⟩
    exact ⟨_, rest, rfl, ⟨rfl, ha⟩, rfl⟩
  · rintro ⟨_, rest, rfl, ⟨rfl, ha⟩, rfl⟩
    exact ⟨rest, rfl, ha, rfl⟩

theorem text : Extends tail 1 ts text text := by
  refine of_reads_one (fun t a => ∃ src v, t = .literal src (.text v) ∧ a = ⟨v, t⟩) ?_
  intro ts s a c'
  rw [run_text_eq_ok]
  constructor
  · rintro ⟨src, v, rest, rfl, rfl, rfl⟩
    exact ⟨_, rest, rfl, ⟨src, v, rfl, rfl⟩, rfl⟩
  · rintro ⟨_, rest, rfl, ⟨src, v, rfl, rfl⟩, rfl⟩
    exact ⟨src, v, rest, rfl, rfl, rfl⟩

theorem literal : Extends tail 1 ts literal literal := by
  refine of_reads (fun read a => ∀ rest, IsLiteral (read ++ rest) a rest) ?_ ?_
  · intro ts s a c'
    rw [run_literal_eq_ok]
    constructor
    · rintro ⟨rest, h, rfl⟩
      cases h with
      | literal src k => exact ⟨[_], rest, rfl, fun us => .literal src k us, rfl⟩
      | truth _ h => exact ⟨[_], rest, rfl, fun us => .truth us h, rfl⟩
      | signed _ h => exact ⟨[_, _], rest, rfl, fun us => .signed us h, rfl⟩
    · rintro ⟨read, rest, rfl, h, rfl⟩
      exact ⟨rest, h rest, rfl⟩
  · intro read a h
    obtain _ | ⟨t, read⟩ := read
    · cases h []
    · exact Nat.le_trans t.one_le_weight (Nat.le_add_right _ _)

theorem take_length_sub (tail : List Token) {us : List Token} (h : us.length ≤ ts.length) :
    (ts ++ tail).take ((ts ++ tail).length - (us ++ tail).length) =
      ts.take (ts.length - us.length) := by
  have hl : (ts ++ tail).length - (us ++ tail).length = ts.length - us.length := by
    simp only [List.length_append]
    omega
  rw [hl, List.take_append_of_le_length (Nat.sub_le _ _)]

theorem consumed {p q p' q' : Reader α} (h : Agrees tail k ts p q p' q') :
    Agrees tail k ts (consumed p) (consumed q) (consumed p') (consumed q') where
  extend hp := by
    obtain ⟨hp, hread⟩ := run_consumed_eq_ok.1 hp
    obtain ⟨hw, hq⟩ := h.extend hp
    refine ⟨hw, run_consumed_eq_ok.2 ⟨hq, ?_⟩⟩
    rw [hread, take_length_sub tail (p.suffix hp).length_le]
  restrict hp := by
    obtain ⟨hp, hread⟩ := run_consumed_eq_ok.1 hp
    obtain ⟨hw, hq⟩ := h.restrict hp
    refine ⟨hw, run_consumed_eq_ok.2 ⟨hq, ?_⟩⟩
    rw [hread, take_length_sub tail (q'.suffix hq).length_le]

theorem within {p q : Reader α} (d : Delimiter)
    (h : ∀ content, weightOfList content + 2 ≤ weightOfList ts → Extends [] 0 content p q) :
    Extends tail 2 ts (within d p) (within d q) where
  extend hp := by
    obtain ⟨content, rest, ⟨r, s₁⟩, hts, hr, hx⟩ := run_within_cases.1 hp
    dsimp only at hts hr hx
    subst hts
    cases hx
    obtain ⟨-, hq⟩ := (h content (by simp)).extend hr
    simp only [List.append_nil] at hq
    refine ⟨?_, ?_⟩
    · simp only [weightOfList_cons, weight_group]
      omega
    · exact run_within_cases.2 ⟨content, _, _, rfl, hq, rfl⟩
  restrict hp := by
    obtain ⟨content, rest, ⟨r, s₁⟩, hts, hr, hx⟩ := run_within_cases.1 hp
    dsimp only at hts hr hx
    cases hx
    obtain rfl := List.append_cancel_right (hts.trans (List.cons_append ..).symm)
    have hq := (h content (by simp)).restrict (by simpa using hr)
    refine ⟨?_, run_within_cases.2 ⟨content, _, _, rfl, hq.2, rfl⟩⟩
    simp only [weightOfList_cons, weight_group]
    omega

end Agrees

/-! ### Readers with a bounded number of steps -/

/-- What the reader `f` reads in `n` steps it reads in any number of steps that is enough for the
tokens; `rank` is the number of steps that it may take before it reads a token. -/
def Steady {α : Type} (tail : List Token) (rank k : Nat) (f : Nat → Reader α) (n : Nat) : Prop :=
  ∀ ts m, 8 * weightOfList ts + rank ≤ m → Extends tail k ts (f n) (f m)

namespace Steady

variable {α : Type} {tail : List Token} {rank k n : Nat} {f : Nat → Reader α}

theorem zero {what : String} (h : f 0 = refuse what) : Steady tail rank k f 0 := by
  intro ts m _
  rw [h]
  exact .refuse what

theorem succ (hr : 0 < rank)
    (h : ∀ ts m, 8 * weightOfList ts + rank ≤ m + 1 → Extends tail k ts (f (n + 1)) (f (m + 1))) :
    Steady tail rank k f (n + 1) := by
  intro ts m hm
  cases m with
  | zero => omega
  | succ m => exact h ts m hm

end Steady
end RestDispatch.Declaration
