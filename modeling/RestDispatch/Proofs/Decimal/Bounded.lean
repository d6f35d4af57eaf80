import RestDispatch.Decimal.Digits

/-!
# Numerals below a bound

`readBounded` takes the digits one by one and gives up at the first that takes the number to the
bound, so that what it reads never wraps. `readBounded_eq_ok_iff` says what it reads: the numerals
of the numbers below the bound, with any zeros in front and at most a plus sign.
-/

namespace RestDispatch.Decimal

/-- Digits, at least one, that denote a number. -/
structure Denotes (ds : List Char) (n : Nat) : Prop where
  nonempty : ds ≠ []
  digits : ∀ d ∈ ds, d.isDigit = true
  value : Nat.ofDigitChars 10 ds 0 = n

/-- A numeral without a minus sign: digits, or digits after a plus sign. -/
def IsNumeral (cs : List Char) (n : Nat) : Prop :=
  ∃ ds, (cs = ds ∨ cs = '+' :: ds) ∧ Denotes ds n

theorem toNat_of_isDigit {c : Char} (h : c.isDigit = true) : 48 ≤ c.toNat ∧ c.toNat ≤ 57 := by
  simp only [Char.isDigit, Bool.and_eq_true, decide_eq_true_eq, UInt32.le_iff_toNat_le] at h
  exact h

/-- The number of digits is no less than what stands before them. -/
theorem le_ofDigitChars (ds : List Char) (init : Nat) : init ≤ Nat.ofDigitChars 10 ds init := by
  rw [Nat.ofDigitChars_eq_ofDigitChars_zero]
  have h := Nat.le_mul_of_pos_left init (Nat.pow_pos (n := ds.length) (show 0 < 10 by decide))
  omega

/-- The digits of a number denote it, with any zeros in front. -/
theorem denotes_toDigits (zeros n : Nat) :
    Denotes (List.replicate zeros '0' ++ Nat.toDigits 10 n) n where
  nonempty h := Nat.toDigits_ne_nil (List.append_eq_nil_iff.1 h).2
  digits d hd := by
    rcases List.mem_append.1 hd with hd | hd
    · rw [List.eq_of_mem_replicate hd]
      rfl
    · exact Nat.isDigit_of_mem_toDigits (by decide) (by decide) hd
  value := by
    have hzeros : Nat.ofDigitChars 10 (List.replicate zeros '0') 0 = 0 := by
      induction zeros with
      | zero => rfl
      | succ k ih => exact ih
    rw [Nat.ofDigitChars_append, hzeros, Nat.ofDigitChars_ten_toDigits]

/-- Digits are read as long as the number stays below the bound, and nothing else is read. -/
theorem readDigits_eq_ok_iff {bound acc : Nat} (hacc : acc < bound) {cs : List Char} {n : Nat} :
    readDigits bound acc cs = .ok n ↔
      (∀ c ∈ cs, c.isDigit = true) ∧ Nat.ofDigitChars 10 cs acc = n ∧ n < bound := by
  induction cs generalizing acc with
  | nil =>
    simp only [readDigits, Except.ok.injEq, List.not_mem_nil, Nat.ofDigitChars_nil]
    exact ⟨fun h => ⟨nofun, h, h ▸ hacc⟩, fun h => h.2.1⟩
  | cons c cs ih =>
    rw [readDigits, Nat.ofDigitChars_cons, List.forall_mem_cons]
    by_cases hc : c.isDigit = true
    · have hd : digit? c = some (c.toNat - '0'.toNat) := if_pos hc
      simp only [hd, hc, true_and]
      split
      · next hlt => exact ih hlt
      · next hge =>
        -- more digits take the number no further back, so that the whole is beyond the bound too
        have hle := le_ofDigitChars cs (10 * acc + (c.toNat - '0'.toNat))
        exact ⟨nofun, fun ⟨_, hn, hlt⟩ => absurd hlt (by omega)⟩
    · have hd : digit? c = none := if_neg hc
      simp only [hd]
      exact ⟨nofun, fun h => absurd h.1.1 hc⟩

/-- After a plus sign there are digits alone. -/
theorem isNumeral_plus_iff {cs : List Char} {n : Nat} : IsNumeral ('+' :: cs) n ↔ Denotes cs n := by
  refine ⟨?_, fun h => ⟨cs, .inr rfl, h⟩⟩
  rintro ⟨ds, rfl | h, hds⟩
  · exact absurd (hds.digits '+' List.mem_cons_self) (by decide)
  · cases h
    exact hds

/-- Without a plus sign there are digits alone. -/
theorem isNumeral_iff_of_forall_ne {cs : List Char} (h : ∀ ds, cs ≠ '+' :: ds) {n : Nat} :
    IsNumeral cs n ↔ Denotes cs n :=
  ⟨fun ⟨_, hcs, hds⟩ => hcs.elim (fun e => e ▸ hds) fun e => absurd e (h _), fun hds =>
    ⟨cs, .inl rfl, hds⟩⟩

/-- Exactly the numerals of the numbers below the bound are read, each as its number. -/
theorem readBounded_eq_ok_iff {bound : Nat} (hbound : 0 < bound) {cs : List Char} {n : Nat} :
    readBounded bound cs = .ok n ↔ IsNumeral cs n ∧ n < bound := by
  have hdigits {ds : List Char} (hne : ds ≠ []) :
      readDigits bound 0 ds = .ok n ↔ Denotes ds n ∧ n < bound := by
    rw [readDigits_eq_ok_iff hbound]
    exact ⟨fun ⟨hds, hv, hn⟩ => ⟨⟨hne, hds, hv⟩, hn⟩, fun ⟨h, hn⟩ => ⟨h.digits, h.value, hn⟩⟩
  unfold readBounded
  split
  · rw [isNumeral_iff_of_forall_ne fun ds => (List.cons_ne_nil '+' ds).symm]
    exact ⟨nofun, fun h => absurd rfl h.1.nonempty⟩
  · rw [isNumeral_plus_iff]
    exact ⟨nofun, fun h => absurd rfl h.1.nonempty⟩
  · next ds hne =>
    rw [isNumeral_plus_iff]
    exact hdigits hne
  · next hne _ hplus =>
    rw [isNumeral_iff_of_forall_ne hplus]
    exact hdigits hne

/-- A numeral denotes one number. -/
theorem IsNumeral.unique {cs : List Char} {m n : Nat} (hm : IsNumeral cs m)
    (hn : IsNumeral cs n) : m = n := by
  -- below a bound beyond both numbers it is read as each of them
  have hread {k : Nat} (h : IsNumeral cs k) (hk : k < m + n + 1) :
      readBounded (m + n + 1) cs = .ok k :=
    (readBounded_eq_ok_iff (by omega)).2 ⟨h, hk⟩
  exact Except.ok.inj ((hread hm (by omega)).symm.trans (hread hn (by omega)))

end RestDispatch.Decimal
