import RestDispatch.Proofs.Text.Utf8
import RestDispatch.Url.Percent

/-!
# Percent-encoding and back

What percent-encoding writes: characters that are kept, percent signs and hexadecimal digits
(`mem_encode`). Decoding it gives the octets of the text again, if percent signs are not kept
(`decode_encode_append`).
-/

namespace RestDispatch.Percent

/-! ### The characters that are written -/

/-- The characters of octets that are written out. -/
def octetChars : List Char := "%0123456789ABCDEF".toList

theorem upperDigit_mem {n : Nat} (h : n < 16) : upperDigit n ∈ octetChars := by
  have hall : ∀ n < 16, upperDigit n ∈ octetChars := by decide
  exact hall n h

theorem mem_octet {b : UInt8} {d : Char} (h : d ∈ octet b) : d ∈ octetChars := by
  have hb := b.toNat_lt
  simp only [octet, List.mem_cons, List.not_mem_nil, or_false] at h
  rcases h with rfl | rfl | rfl
  · decide
  · exact upperDigit_mem (by omega)
  · exact upperDigit_mem (by omega)

/-- A character of an encoded text was kept, or belongs to an octet that was written out. -/
theorem mem_encode {keep : Char → Bool} {cs : List Char} {d : Char} (h : d ∈ encode keep cs) :
    (d ∈ cs ∧ d.toNat < 128 ∧ keep d = true) ∨ d ∈ octetChars := by
  obtain ⟨c, hc, hd⟩ := List.mem_flatMap.1 h
  split at hd
  · next hk =>
    cases List.mem_singleton.1 hd
    exact .inl ⟨hc, hk⟩
  · obtain ⟨b, -, hb⟩ := List.mem_flatMap.1 hd
    exact .inr (mem_octet hb)

/-- An encoded text begins with the character that the text begins with, or with a percent sign. -/
theorem head?_encode_cons (keep : Char → Bool) (c : Char) (cs : List Char) :
    (encode keep (c :: cs)).head? = some c ∨ (encode keep (c :: cs)).head? = some '%' := by
  rw [encode, List.flatMap_cons]
  split
  · exact .inl rfl
  · obtain ⟨b, bs, hb⟩ : ∃ b bs, String.utf8EncodeChar c = b :: bs :=
      List.exists_cons_of_length_pos (by rw [String.length_utf8EncodeChar]; exact c.utf8Size_pos)
    rw [hb]
    exact .inr rfl

/-! ### Decoding -/

/-- Octets other than percent signs stand for themselves. -/
theorem decode_cons_of_ne {a : UInt8} (h : a ≠ '%'.toUInt8) (rest : Bytes) :
    decode (a :: rest) = a :: decode rest := by
  rcases rest with _ | ⟨b, _ | ⟨c, rest⟩⟩
  · rfl
  · rfl
  · rw [decode, if_neg h]

theorem digit?_upperDigit {n : Nat} (h : n < 16) :
    ∃ d, String.utf8EncodeChar (upperDigit n) = [d] ∧ digit? d = some n := by
  have hall : ∀ n < 16, String.utf8EncodeChar (upperDigit n) = [(upperDigit n).toUInt8] ∧
      digit? (upperDigit n).toUInt8 = some n := by decide
  exact ⟨_, hall n h⟩

theorem decode_octet_append (b : UInt8) (rest : Bytes) :
    decode (Utf8.encodeList (octet b) ++ rest) = b :: decode rest := by
  have hb := b.toNat_lt
  obtain ⟨x, hx, hhigh⟩ := digit?_upperDigit (n := b.toNat / 16) (by omega)
  obtain ⟨y, hy, hlow⟩ := digit?_upperDigit (n := b.toNat % 16) (by omega)
  have hpercent : String.utf8EncodeChar '%' = ['%'.toUInt8] := by decide
  have hvalue : (16 * (b.toNat / 16) + b.toNat % 16).toUInt8 = b := by
    rw [Nat.div_add_mod]
    exact UInt8.ofNat_toNat
  simp only [octet, Utf8.encodeList_cons, Utf8.encodeList_nil, hpercent, hx, hy, List.cons_append,
    List.nil_append, List.append_nil, decode, if_true, hhigh, hlow, hvalue]

theorem decode_octets_append (bs rest : Bytes) :
    decode (Utf8.encodeList (bs.flatMap octet) ++ rest) = bs ++ decode rest := by
  induction bs with
  | nil => rfl
  | cons b bs ih =>
    rw [List.flatMap_cons, Utf8.encodeList_append, List.append_assoc, decode_octet_append, ih,
      List.cons_append]

theorem decode_char_append {keep : Char → Bool} (hk : keep '%' = false) (c : Char) (rest : Bytes) :
    decode (Utf8.encodeList (encode keep [c]) ++ rest) =
      String.utf8EncodeChar c ++ decode rest := by
  rw [encode, List.flatMap_singleton]
  split
  · next hc =>
    -- a character that is kept is no percent sign, so neither is its octet
    have hne : UInt8.ofNat c.toNat ≠ '%'.toUInt8 := by
      intro e
      have hp : c = '%' := by
        have hv : (UInt8.ofNat c.toNat).toNat = c.toNat :=
          UInt8.toNat_ofNat_of_lt' (show c.toNat < 256 by omega)
        rw [← Char.ofNat_toNat c, ← hv, e]
        rfl
      rw [hp, hk] at hc
      exact absurd hc.2 (by decide)
    rw [Utf8.encodeList_cons, Utf8.encodeList_nil, List.append_nil, Utf8.utf8EncodeChar_of_lt hc.1,
      List.singleton_append, decode_cons_of_ne hne, List.singleton_append]
  · exact decode_octets_append _ _

/-- Decoding gives the octets of a text that was encoded, whatever follows it. -/
theorem decode_encode_append {keep : Char → Bool} (hk : keep '%' = false) (cs : List Char)
    (rest : Bytes) :
    decode (Utf8.encodeList (encode keep cs) ++ rest) = Utf8.encodeList cs ++ decode rest := by
  induction cs with
  | nil => rfl
  | cons c cs ih =>
    calc decode (Utf8.encodeList (encode keep (c :: cs)) ++ rest)
        = decode (Utf8.encodeList (encode keep [c]) ++
            (Utf8.encodeList (encode keep cs) ++ rest)) := by
          rw [← List.append_assoc, ← Utf8.encodeList_append, ← encode_append, List.singleton_append]
      _ = Utf8.encodeList (c :: cs) ++ decode rest := by
          rw [decode_char_append hk, ih, Utf8.encodeList_cons, List.append_assoc]

end RestDispatch.Percent
