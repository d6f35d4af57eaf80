import RestDispatch.Text.Utf8

/-!
# The order of octets

Texts are ordered by their characters, and stored and sent as octets. The two orders agree: the
leading octet of an encoding grows with its length, and among encodings of one length the octets
are the digits of the character to the base 64. `encode_lt` says so of whole texts.
-/

namespace RestDispatch.Utf8

theorem ofNat_lt_iff {m n : Nat} (hm : m < 256) (hn : n < 256) :
    UInt8.ofNat m < UInt8.ofNat n ↔ m < n := by
  rw [UInt8.lt_iff_toNat_lt, UInt8.toNat_ofNat_of_lt' hm, UInt8.toNat_ofNat_of_lt' hn]

theorem ofNat_inj {m n : Nat} (hm : m < 256) (hn : n < 256) :
    UInt8.ofNat m = UInt8.ofNat n ↔ m = n := by
  rw [← UInt8.toNat_inj, UInt8.toNat_ofNat_of_lt' hm, UInt8.toNat_ofNat_of_lt' hn]

theorem val_lt (c : Char) : c.val.toNat < 0x110000 := by
  rcases c.valid with h | ⟨-, h⟩
  · exact Nat.lt_trans h (by decide)
  · exact h

/-- The octets of a smaller character come before those of a greater one, whatever follows them. -/
theorem utf8EncodeChar_append_lt {c d : Char} (h : c < d) (xs ys : Bytes) :
    String.utf8EncodeChar c ++ xs < String.utf8EncodeChar d ++ ys := by
  have hlt : c.val.toNat < d.val.toNat := h
  have hd := val_lt d
  -- each further octet takes one more digit to the base 64
  have htwo (v : Nat) : v / 4096 = v / 64 / 64 := by omega
  have hthree (v : Nat) : v / 262144 = v / 64 / 64 / 64 := by omega
  unfold String.utf8EncodeChar
  simp only [htwo, hthree]
  -- one case for each pair of lengths; a longer encoding is never that of a smaller character
  repeat' split
  all_goals
    simp (disch := omega) only [List.cons_append, List.nil_append, List.cons_lt_cons_iff,
      ofNat_lt_iff, ofNat_inj]
    omega

theorem encodeList_lt {cs ds : List Char} (h : cs < ds) : encodeList cs < encodeList ds := by
  induction cs generalizing ds with
  | nil =>
    cases ds with
    | nil => exact absurd h (List.lt_irrefl _)
    | cons d ds =>
      obtain ⟨b, bs, hb⟩ : ∃ b bs, String.utf8EncodeChar d = b :: bs :=
        List.exists_cons_of_length_pos (by rw [String.length_utf8EncodeChar]; exact d.utf8Size_pos)
      rw [encodeList_nil, encodeList_cons, hb]
      exact List.nil_lt_cons _ _
  | cons c cs ih =>
    cases ds with
    | nil => exact absurd h (List.not_lt_nil _)
    | cons d ds =>
      rw [encodeList_cons, encodeList_cons]
      rcases List.cons_lt_cons_iff.1 h with hcd | ⟨rfl, hs⟩
      · exact utf8EncodeChar_append_lt hcd _ _
      · exact List.append_left_lt (ih hs)

/-- A smaller text has smaller octets. -/
theorem encode_lt {s t : String} (h : s < t) : encode s < encode t := encodeList_lt h

end RestDispatch.Utf8
