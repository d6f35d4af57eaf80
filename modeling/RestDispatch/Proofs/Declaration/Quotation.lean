import RestDispatch.Declaration.Lexer
import RestDispatch.Declaration.Printer

/-!
# String literals that are written

A text is written as a string literal with escapes for the characters that could not stand in one or
could not be seen. `readQuoted?_literalText` says that the literal is read back as the text,
whatever the characters of the text are.
-/

namespace RestDispatch.Declaration

/-! ### Code points -/

theorem digitIn16?_digitChar : ∀ n < 16, Nat.digitChar n ≠ '\x7d' ∧ Nat.digitChar n ≠ '_' ∧
    digitIn16? (Nat.digitChar n) = some n := by
  decide

theorem readCodePoint_digitChar {count n : Nat} (hcount : count < 6) (hn : n < 16) (value : Nat)
    (rest : List Char) : readCodePoint count value (Nat.digitChar n :: rest) =
      readCodePoint (count + 1) (16 * value + n) rest := by
  obtain ⟨hbrace, hblank, hdigit⟩ := digitIn16?_digitChar n hn
  show (if Nat.digitChar n = '\x7d' then _ else if Nat.digitChar n = '_' then _ else _) = _
  rw [if_neg hbrace, if_neg hblank, hdigit]
  exact if_pos hcount

/-- Up to six digits of a number are read as the number. -/
theorem readCodePoint_toDigits {n : Nat} (hn : (Nat.toDigits 16 n).length ≤ 6) (rest : List Char) :
    readCodePoint 0 0 (Nat.toDigits 16 n ++ rest) =
      readCodePoint (Nat.toDigits 16 n).length n rest := by
  induction n using Nat.strongRecOn generalizing rest with
  | ind n ih =>
    by_cases h : n < 16
    · rw [Nat.toDigits_of_lt_base h, List.singleton_append,
        readCodePoint_digitChar (by decide) h, Nat.mul_zero, Nat.zero_add, Nat.zero_add,
        List.length_singleton]
    · -- the last digit is read after those of the number without it
      have hlast : n % 16 < 16 := Nat.mod_lt n (by decide)
      rw [Nat.toDigits_of_base_le (by decide) (Nat.not_lt.1 h)] at hn ⊢
      rw [List.length_append, List.length_singleton] at hn ⊢
      rw [List.append_assoc, ih (n / 16) (by omega) (by omega), List.singleton_append,
        readCodePoint_digitChar (by omega) hlast, Nat.div_add_mod]

/-- A code point is read as its character. -/
theorem readCodePoint_hex (c : Char) (rest : List Char) :
    readCodePoint 0 0 (Text.hex c.toNat ++ '\x7d' :: rest) = some (c, rest) := by
  have hvalid : c.toNat.isValidChar := c.valid
  have hlt : c.toNat < 16 ^ 6 := by
    rw [Nat.isValidChar] at hvalid
    omega
  have hlen := (Nat.length_toDigits_le_iff (by decide) (by decide)).2 hlt
  have hc := Char.ofNat_toNat c
  rw [Char.ofNat, dif_pos hvalid] at hc
  rw [Text.hex, readCodePoint_toDigits hlen]
  show (if (Nat.toDigits 16 c.toNat).length = 0 then none
    else if h : c.toNat.isValidChar then some (Char.ofNatAux c.toNat h, rest) else none) = _
  rw [if_neg (Nat.ne_of_gt Nat.length_toDigits_pos), dif_pos hvalid, hc]

/-! ### Characters of a string -/

/-- What is written for a character in a string literal, if it is read as the character. -/
def Writes (piece : List Char) (c : Char) : Prop :=
  piece ≠ [] ∧ ∀ fuel rest, readCooked 128 (fuel + 1) (piece ++ rest) =
    (readCooked 128 fuel rest).map fun r => (c :: r.1, r.2)

/-- What is written for a character by the rules for quotes is read as the character. -/
theorem writes_quoteChar (c : Char) : Writes (Text.quoteChar '"' c) c := by
  unfold Text.quoteChar
  split
  · next h => rcases h with rfl | rfl <;> exact ⟨by simp, fun _ _ => rfl⟩
  split
  · next h => subst h; exact ⟨by simp, fun _ _ => rfl⟩
  split
  · next h => subst h; exact ⟨by simp, fun _ _ => rfl⟩
  split
  · next h => subst h; exact ⟨by simp, fun _ _ => rfl⟩
  split
  · next h =>
    obtain rfl : c = Char.ofNat 0 := Char.toNat_inj.1 h
    exact ⟨by simp, fun _ _ => rfl⟩
  split
  · refine ⟨by simp, fun fuel rest => ?_⟩
    have hescape : readCharEscape 128 ('u' :: '\x7b' :: (Text.hex c.toNat ++ '\x7d' :: rest)) =
        some (c, rest) := readCodePoint_hex c rest
    rw [List.cons_append, List.cons_append, List.cons_append, List.append_assoc,
      List.singleton_append, readCooked]
    · rw [hescape]
    · simp
    · simp
  · next h _ hcr _ _ _ =>
    obtain ⟨hquote, hslash⟩ := not_or.1 h
    refine ⟨by simp, fun fuel rest => ?_⟩
    rw [List.singleton_append, readCooked]
    · exact hquote
    · exact hslash
    · exact hcr

/-- What is written for a text is what is written for its characters one after the other. -/
theorem exists_literalChars_cons (c : Char) (cs : List Char) :
    ∃ piece, literalChars (c :: cs) = piece ++ literalChars cs ∧ Writes piece c := by
  rw [literalChars]
  split
  · next h =>
    obtain rfl : c = Char.ofNat 0 := Char.toNat_inj.1 h.1
    exact ⟨['\\', 'x', '0', '0'], rfl, by simp, fun _ _ => rfl⟩
  · exact ⟨_, rfl, writes_quoteChar c⟩

theorem length_le_literalChars (cs : List Char) : cs.length ≤ (literalChars cs).length := by
  induction cs with
  | nil => exact Nat.zero_le _
  | cons c cs ih =>
    obtain ⟨piece, hpiece, hne, -⟩ := exists_literalChars_cons c cs
    have hpos := List.length_pos_iff.2 hne
    rw [hpiece, List.length_append, List.length_cons]
    omega

/-- What is written between the quotes of a text is read as the text, up to the second quote. -/
theorem readCooked_literalChars {cs : List Char} {fuel : Nat} (h : cs.length < fuel)
    (rest : List Char) :
    readCooked 128 fuel (literalChars cs ++ '"' :: rest) = some (cs, rest) := by
  induction cs generalizing fuel with
  | nil =>
    obtain ⟨fuel, rfl⟩ := Nat.exists_eq_succ_of_ne_zero (Nat.ne_of_gt h)
    rfl
  | cons c cs ih =>
    obtain ⟨fuel, rfl⟩ := Nat.exists_eq_succ_of_ne_zero (Nat.ne_of_gt (Nat.zero_lt_of_lt h))
    obtain ⟨piece, hpiece, -, hread⟩ := exists_literalChars_cons c cs
    rw [hpiece, List.append_assoc, hread, ih (Nat.lt_of_succ_lt_succ h)]
    rfl

theorem toList_literalText (s : String) :
    (literalText s).toList = '"' :: (literalChars s.toList ++ ['"']) := by
  rw [literalText, String.toList_ofList, List.cons_append]

/-- **A text that is written as a string literal is read back.** -/
theorem readQuoted?_literalText (s : String) (rest : List Char) :
    readQuoted? ((literalText s).toList ++ ' ' :: rest) = some (.text s, ' ' :: rest) := by
  have hlen := length_le_literalChars s.toList
  rw [toList_literalText, List.cons_append, List.append_assoc, List.singleton_append, readQuoted?,
    readCooked_literalChars (by simp only [List.length_cons, List.length_append]; omega)]
  show some (LiteralKind.text (String.ofList s.toList), dropSuffix (' ' :: rest)) = _
  rw [String.ofList_toList]
  rfl

end RestDispatch.Declaration
