import RestDispatch.Json.Printer
import RestDispatch.Json.Token
import RestDispatch.Proofs.Decimal.Bounded
import RestDispatch.Proofs.Text.Utf8

/-!
# Reading integers that were written

The decimal digits of an integer of 64 bits are read back as the integer (`integer_cases` and
`readNumber_toDigits`), if what follows them could not go on with the numeral.
-/

namespace RestDispatch.Json

open Utf8

/-- What may follow a value in the text of a list or an object, or at the end of a text. -/
def Ends (rest : Bytes) : Prop :=
  ∀ b ∈ rest.head?, b = ','.toUInt8 ∨ b = ']'.toUInt8 ∨ b = '\x7d'.toUInt8

theorem ends_nil : Ends [] := by
  rintro b ⟨⟩

/-! ### Digits -/

/-- A digit is one octet, and has its value. -/
theorem utf8EncodeChar_of_isDigit {d : Char} (h : d.isDigit = true) :
    ∃ b, String.utf8EncodeChar d = [b] ∧ isDigit b = true ∧
      digitValue b = d.toNat - '0'.toNat ∧ (b = '0'.toUInt8 → d = '0') := by
  obtain ⟨hlo, hhi⟩ := Decimal.toNat_of_isDigit h
  have hb : (UInt8.ofNat d.toNat).toNat = d.toNat :=
    UInt8.toNat_ofNat_of_lt' (show d.toNat < 256 by omega)
  refine ⟨_, utf8EncodeChar_of_lt (by omega), ?_, ?_, ?_⟩
  · simp only [isDigit, Bool.and_eq_true, decide_eq_true_eq, UInt8.le_iff_toNat_le, hb]
    exact ⟨hlo, hhi⟩
  · rw [digitValue, hb]
    rfl
  · intro h
    rw [h] at hb
    exact Char.toNat_inj.1 hb.symm

/-- Digits are taken as long as the number fits. -/
theorem takeSignificand_append {ds : List Char} (hds : ∀ d ∈ ds, d.isDigit = true) {acc : Nat}
    (hfits : Nat.ofDigitChars 10 ds acc < 0x10000000000000000) {rest : Bytes}
    (hrest : startsWithDigit rest = false) :
    takeSignificand acc (encodeList ds ++ rest) = (Nat.ofDigitChars 10 ds acc, rest) := by
  induction ds generalizing acc with
  | nil =>
    rw [encodeList_nil, List.nil_append, Nat.ofDigitChars_nil]
    cases rest with
    | nil => rfl
    | cons b bs => rw [takeSignificand, if_neg (by simp_all [startsWithDigit])]
  | cons d ds ih =>
    obtain ⟨hd, hds⟩ := List.forall_mem_cons.1 hds
    obtain ⟨b, hb, hdigit, hvalue, -⟩ := utf8EncodeChar_of_isDigit hd
    rw [Nat.ofDigitChars_cons, ← hvalue] at hfits
    -- the number so far is no more than the whole one, so that it fits as well
    have hle := Decimal.le_ofDigitChars ds (10 * acc + digitValue b)
    rw [encodeList_cons, hb, List.singleton_append, List.cons_append, takeSignificand,
      if_pos ⟨hdigit, by omega⟩, ih hds hfits, Nat.ofDigitChars_cons, hvalue]

/-- No number but zero is written with a zero in front. -/
theorem exists_toDigits_eq_cons {n : Nat} (hn : n ≠ 0) :
    ∃ d ds, Nat.toDigits 10 n = d :: ds ∧ d ≠ '0' := by
  induction n using Nat.strongRecOn with
  | ind n ih =>
    by_cases h : n < 10
    · have hdigit : ∀ m < 10, m ≠ 0 → Nat.digitChar m ≠ '0' := by decide
      exact ⟨_, [], Nat.toDigits_of_lt_base h, hdigit n h hn⟩
    · obtain ⟨d, ds, hd, hne⟩ := ih (n / 10) (by omega) (by omega)
      exact ⟨d, _, by rw [Nat.toDigits_of_base_le (by decide) (by omega), hd]; rfl, hne⟩

theorem exists_encodeList_toDigits (n : Nat) :
    ∃ b bs, encodeList (Nat.toDigits 10 n) = b :: bs ∧ isDigit b = true := by
  cases h : Nat.toDigits 10 n with
  | nil => exact absurd h Nat.toDigits_ne_nil
  | cons d ds =>
    have hd : d ∈ Nat.toDigits 10 n := h ▸ .head ds
    obtain ⟨b, hb, hdigit, -⟩ :=
      utf8EncodeChar_of_isDigit (Nat.isDigit_of_mem_toDigits (by decide) (by decide) hd)
    exact ⟨b, encodeList ds, by rw [encodeList_cons, hb]; rfl, hdigit⟩

/-! ### Numerals -/

theorem Ends.startsWithDigit {rest : Bytes} (h : Ends rest) : startsWithDigit rest = false := by
  cases rest with
  | nil => rfl
  | cons b bs => rcases h b rfl with rfl | rfl | rfl <;> rfl

theorem Ends.readAfterWhole {rest : Bytes} (h : Ends rest) (negative : Bool) (n : Nat) :
    readAfterWhole negative n rest = .ok (signedInteger negative n, rest) := by
  cases rest with
  | nil => rfl
  | cons b bs => rcases h b rfl with rfl | rfl | rfl <;> rfl

/-- The digits of a number are read as the number. -/
theorem readNumber_toDigits (negative : Bool) {n : Nat} (hn : n < 0x10000000000000000)
    {rest : Bytes} (hrest : Ends rest) :
    readNumber negative (encodeList (Nat.toDigits 10 n) ++ rest) =
      .ok (signedInteger negative n, rest) := by
  -- a zero in front ends the numeral, so that zero has to be read by itself
  by_cases hzero : n = 0
  · subst hzero
    show (if startsWithDigit rest then _ else readAfterWhole negative 0 rest) = _
    rw [hrest.startsWithDigit, if_neg (by decide), hrest.readAfterWhole]
  · obtain ⟨d, ds, hdigits, hne⟩ := exists_toDigits_eq_cons hzero
    have hall : ∀ c ∈ d :: ds, c.isDigit = true := fun c hc =>
      Nat.isDigit_of_mem_toDigits (by decide) (by decide) (hdigits ▸ hc)
    have hvalue : Nat.ofDigitChars 10 (d :: ds) 0 = n := hdigits ▸ Nat.ofDigitChars_ten_toDigits
    obtain ⟨hd, hds⟩ := List.forall_mem_cons.1 hall
    obtain ⟨b, hb, hdigit, hdv, hb0⟩ := utf8EncodeChar_of_isDigit hd
    rw [Nat.ofDigitChars_cons, ← hdv, Nat.mul_zero, Nat.zero_add] at hvalue
    rw [hdigits, encodeList_cons, hb, List.singleton_append, List.cons_append, readNumber,
      if_neg fun h => hne (hb0 h), if_pos hdigit,
      takeSignificand_append hds (hvalue ▸ hn) hrest.startsWithDigit, hvalue]
    show (if startsWithDigit rest then _ else readAfterWhole negative n rest) = _
    rw [hrest.startsWithDigit, if_neg (by decide), hrest.readAfterWhole]

/-- An integer that fits is the one of its sign and its digits. -/
theorem signedInteger_eq {negative : Bool} {n : Nat} {i : Integer64}
    (hval : (if negative then -(n : Int) else n) = i.val) (hn : ¬ (negative = true ∧ n = 0)) :
    signedInteger negative n = .integer i := by
  have hfits : Integer64.ofInt? i.val = some i := dif_pos ⟨i.least, i.bound⟩
  simp only [signedInteger, hval, hfits]
  exact if_neg hn

/-- An integer is written as its digits, after a sign if it is negative. -/
theorem integer_cases (i : Integer64) : ∃ n < 0x10000000000000000,
    (JsonNumber.text (.integer i) = Nat.toDigits 10 n ∧ signedInteger false n = .integer i) ∨
    (JsonNumber.text (.integer i) = '-' :: Nat.toDigits 10 n ∧
      signedInteger true n = .integer i) := by
  have hlo := i.least
  have hhi := i.bound
  cases hi : i.val with
  | ofNat n =>
    have htext : JsonNumber.text (.integer i) = Nat.toDigits 10 n := by
      rw [JsonNumber.text, hi]
      exact Nat.toList_repr
    rw [hi, Int.ofNat_eq_natCast] at hhi
    exact ⟨n, by omega, .inl ⟨htext, signedInteger_eq hi.symm (by simp)⟩⟩
  | negSucc n =>
    have htext : JsonNumber.text (.integer i) = '-' :: Nat.toDigits 10 (n + 1) := by
      rw [JsonNumber.text, hi]
      show ("-" ++ (n + 1).repr).toList = _
      rw [String.toList_append, Nat.toList_repr]
      rfl
    rw [hi] at hlo
    exact ⟨n + 1, by omega, .inr ⟨htext, signedInteger_eq hi.symm (by simp)⟩⟩

end RestDispatch.Json
