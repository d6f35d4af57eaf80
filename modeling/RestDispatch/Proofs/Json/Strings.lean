import RestDispatch.Json.Printer
import RestDispatch.Json.Token
import RestDispatch.Proofs.Text.Utf8

/-!
# Reading strings that were written

A string is written character by character, and read in pieces: an escape is one, and any other
octet is one. Either an escape stands for its character, or the octets of the character stand for
themselves; so the pieces of what is written for a text are its octets (`readPieces_flatMap`), and
`readString_flatMap` says that the text is found again, whatever follows.
-/

namespace RestDispatch.Json

open Utf8

/-! ### Octets that stand for themselves -/

/-- An octet that stands for itself in a string. -/
structure Bare (b : UInt8) : Prop where
  quote : b ≠ '"'.toUInt8
  backslash : b ≠ '\\'.toUInt8
  space : ¬ b < 0x20

/-- Bare octets are read as they are. -/
theorem readPieces_bare {bs : Bytes} (h : ∀ b ∈ bs, Bare b) (fuel : Nat) (rest : Bytes) :
    readPieces (fuel + bs.length) (bs ++ rest) =
      (readPieces fuel rest).map fun r => (bs ++ r.1, r.2) := by
  induction bs with
  | nil =>
    rw [List.nil_append, List.length_nil, Nat.add_zero]
    cases readPieces fuel rest <;> rfl
  | cons b bs ih =>
    obtain ⟨hb, hbs⟩ := List.forall_mem_cons.1 h
    rw [List.length_cons, ← Nat.add_assoc, List.cons_append, readPieces, if_neg hb.quote,
      if_neg hb.backslash, if_neg hb.space, ih hbs]
    cases readPieces fuel rest <;> rfl

/-- The octets of a character that is not escaped are bare. -/
theorem bare_of_mem {c : Char} (hq : c ≠ '"') (hs : c ≠ '\\') (hc : ¬ c.toNat < 0x20) {b : UInt8}
    (hb : b ∈ String.utf8EncodeChar c) : Bare b := by
  by_cases h : c.toNat < 128
  · rw [utf8EncodeChar_of_lt h, List.mem_singleton] at hb
    have hn : b.toNat = c.toNat := by
      rw [hb]
      exact UInt8.toNat_ofNat_of_lt' (show c.toNat < 256 by omega)
    refine ⟨?_, ?_, ?_⟩
    · rintro rfl
      exact hq (Char.toNat_inj.1 hn.symm)
    · rintro rfl
      exact hs (Char.toNat_inj.1 hn.symm)
    · rw [UInt8.lt_iff_toNat_lt, hn]
      exact hc
  · have hn : 128 ≤ b.toNat := le_of_mem_utf8EncodeChar (by omega) hb
    refine ⟨?_, ?_, ?_⟩
    · rintro rfl
      exact absurd hn (by decide)
    · rintro rfl
      exact absurd hn (by decide)
    · rw [UInt8.lt_iff_toNat_lt]
      exact Nat.not_lt.2 (Nat.le_trans (by decide) hn)

/-! ### Escapes -/

/-- The escape of a control character. -/
theorem encodeList_escapeControl : ∀ n < 0x20, encodeList (escapeControl (Char.ofNat n)) =
    ['\\'.toUInt8, 'u'.toUInt8, '0'.toUInt8, '0'.toUInt8, (Nat.digitChar (n / 16)).toUInt8,
      (Nat.digitChar (n % 16)).toUInt8] := by
  decide

theorem hexValue?_digitChar : ∀ n < 16, hexValue? (Nat.digitChar n).toUInt8 = some n := by
  decide

/-- An escape is read as the character that it was written for. -/
theorem readEscape_control {n : Nat} (hn : n < 0x20) (rest : Bytes) :
    readEscape ('u'.toUInt8 :: '0'.toUInt8 :: '0'.toUInt8 :: (Nat.digitChar (n / 16)).toUInt8 ::
      (Nat.digitChar (n % 16)).toUInt8 :: rest) =
        .ok (String.utf8EncodeChar (Char.ofNat n), rest) := by
  have hhex : readHex ('0'.toUInt8 :: '0'.toUInt8 :: (Nat.digitChar (n / 16)).toUInt8 ::
      (Nat.digitChar (n % 16)).toUInt8 :: rest) = .ok (n, rest) := by
    have hz : hexValue? '0'.toUInt8 = some 0 := rfl
    simp only [readHex, hz, hexValue?_digitChar (n / 16) (by omega),
      hexValue?_digitChar (n % 16) (by omega)]
    exact congrArg (fun m => Except.ok (m, rest)) (by omega)
  show readUnicodeEscape _ = _
  rw [readUnicodeEscape, hhex]
  show (if 0xDC00 ≤ n ∧ n ≤ 0xDFFF then _ else _) = _
  rw [if_neg (by omega), if_pos (by omega)]
  rfl

/-- An escape is one piece. -/
theorem readPieces_escape {bs rest piece : Bytes} (h : readEscape bs = .ok (piece, rest))
    (fuel : Nat) : readPieces (fuel + 1) ('\\'.toUInt8 :: bs) =
      (readPieces fuel rest).map fun r => (piece ++ r.1, r.2) := by
  rw [readPieces, if_neg (by decide), if_pos rfl, h]
  show (readPieces fuel rest).bind _ = _
  cases readPieces fuel rest <;> rfl

/-- A character is written as an escape that is read as the character, or as it is. -/
theorem escapeChar_cases (c : Char) :
    (∃ es, encodeList (escapeChar c) = '\\'.toUInt8 :: es ∧
      ∀ rest, readEscape (es ++ rest) = .ok (String.utf8EncodeChar c, rest)) ∨
    (escapeChar c = [c] ∧ ∀ b ∈ String.utf8EncodeChar c, Bare b) := by
  unfold escapeChar
  split
  · next h => rcases h with rfl | rfl <;> exact .inl ⟨_, rfl, fun _ => rfl⟩
  split
  · next h => subst h; exact .inl ⟨_, rfl, fun _ => rfl⟩
  split
  · next h => subst h; exact .inl ⟨_, rfl, fun _ => rfl⟩
  split
  · next h => subst h; exact .inl ⟨_, rfl, fun _ => rfl⟩
  split
  · next h => subst h; exact .inl ⟨_, rfl, fun _ => rfl⟩
  split
  · next h => subst h; exact .inl ⟨_, rfl, fun _ => rfl⟩
  split
  · next h =>
    have hc : Char.ofNat c.toNat = c := Char.ofNat_toNat c
    refine .inl ⟨_, hc ▸ encodeList_escapeControl c.toNat h, fun rest => ?_⟩
    exact (readEscape_control h rest).trans (by rw [hc])
  · next hc _ _ _ _ _ h =>
    obtain ⟨hq, hs⟩ := not_or.1 hc
    exact .inr ⟨rfl, fun b hb => bare_of_mem hq hs h hb⟩

/-! ### Strings -/

/-- What is written for a character is read as the octets of the character. -/
theorem readPieces_escapeChar (c : Char) :
    ∃ n ≤ (encodeList (escapeChar c)).length, ∀ fuel rest,
      readPieces (fuel + n) (encodeList (escapeChar c) ++ rest) =
        (readPieces fuel rest).map fun r => (String.utf8EncodeChar c ++ r.1, r.2) := by
  rcases escapeChar_cases c with ⟨es, he, hread⟩ | ⟨he, hbare⟩
  · rw [he]
    exact ⟨1, by simp, fun fuel rest => readPieces_escape (hread rest) fuel⟩
  · rw [he, encodeList_cons, encodeList_nil, List.append_nil]
    exact ⟨_, Nat.le_refl _, readPieces_bare hbare⟩

/-- What is written for a text is read as the octets of the text. -/
theorem readPieces_flatMap (cs : List Char) :
    ∃ n ≤ (encodeList (cs.flatMap escapeChar)).length, ∀ fuel rest,
      readPieces (fuel + n) (encodeList (cs.flatMap escapeChar) ++ rest) =
        (readPieces fuel rest).map fun r => (encodeList cs ++ r.1, r.2) := by
  induction cs with
  | nil =>
    refine ⟨0, Nat.le_refl _, fun fuel rest => ?_⟩
    rw [List.flatMap_nil, encodeList_nil, List.nil_append, Nat.add_zero]
    cases readPieces fuel rest <;> rfl
  | cons c cs ih =>
    -- the fuel goes by pieces, of which there are no more than octets
    obtain ⟨m, hm, hc⟩ := readPieces_escapeChar c
    obtain ⟨n, hn, hcs⟩ := ih
    refine ⟨n + m, ?_, fun fuel rest => ?_⟩
    · rw [List.flatMap_cons, encodeList_append, List.length_append]
      omega
    · rw [List.flatMap_cons, encodeList_append, List.append_assoc, ← Nat.add_assoc, hc, hcs]
      cases readPieces fuel rest with
      | error f => rfl
      | ok r => simp [Except.map]

/-- What is written for a text is read as the text. -/
theorem readString_flatMap (s : String) (rest : Bytes) :
    readString (encodeList (s.toList.flatMap escapeChar) ++ '"'.toUInt8 :: rest) =
      .ok (s, rest) := by
  obtain ⟨n, hn, hread⟩ := readPieces_flatMap s.toList
  generalize encodeList (s.toList.flatMap escapeChar) = bs at hn hread
  have hfuel : (bs ++ '"'.toUInt8 :: rest).length + 1 =
      (bs.length - n + rest.length + 1) + 1 + n := by
    rw [List.length_append, List.length_cons]
    omega
  have hpieces : readPieces ((bs ++ '"'.toUInt8 :: rest).length + 1) (bs ++ '"'.toUInt8 :: rest) =
      .ok (encode s, rest) := by
    rw [hfuel, hread, readPieces, if_pos rfl]
    exact congrArg (fun octets => Except.ok (octets, rest)) (List.append_nil _)
  simp only [readString, hpieces, bind, Except.bind, decode_encode]
  rfl

end RestDispatch.Json
