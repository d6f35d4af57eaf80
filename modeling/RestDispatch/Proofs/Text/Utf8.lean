import RestDispatch.Proofs.Text.ByteOrder

/-!
# Reading what was encoded

The octets of a character carry its value to the base 64: the leading octet tells how many digits
there are and holds the first, and each trailing octet holds one more. `exists_leading_eq_scalar`
says that the reader finds the character again, whatever octets follow, and `decodeLossy_encode`
that it finds every character of a text, with no fault among them (`decode_encode`).
-/

namespace RestDispatch.Utf8

/-! ### Octets by their digits -/

section Ranges

variable {a b : UInt8}

theorem isTrailing_iff : isTrailing b = true ↔ b.toNat / 64 = 0b10 := by
  simp only [isTrailing, Bool.and_eq_true, decide_eq_true_eq, UInt8.le_iff_toNat_le,
    UInt8.reduceToNat]
  omega

/-- Three octets are short enough for no two, and hold no surrogate. -/
theorem secondOfThree_iff : secondOfThree a b = true ↔
    b.toNat / 64 = 0b10 ∧ (a.toNat = 0xE0 → 0xA0 ≤ b.toNat) ∧
      (a.toNat = 0xED → b.toNat < 0xA0) := by
  simp only [secondOfThree, ← UInt8.toNat_inj, UInt8.reduceToNat]
  split
  · simp only [Bool.and_eq_true, decide_eq_true_eq, UInt8.le_iff_toNat_le, UInt8.reduceToNat]
    omega
  split
  · simp only [Bool.and_eq_true, decide_eq_true_eq, UInt8.le_iff_toNat_le, UInt8.reduceToNat]
    omega
  · rw [isTrailing_iff]
    omega

/-- Four octets are short enough for no three, and hold no more than the last scalar value. -/
theorem secondOfFour_iff : secondOfFour a b = true ↔
    b.toNat / 64 = 0b10 ∧ (a.toNat = 0xF0 → 0x90 ≤ b.toNat) ∧
      (a.toNat = 0xF4 → b.toNat < 0x90) := by
  simp only [secondOfFour, ← UInt8.toNat_inj, UInt8.reduceToNat]
  split
  · simp only [Bool.and_eq_true, decide_eq_true_eq, UInt8.le_iff_toNat_le, UInt8.reduceToNat]
    omega
  split
  · simp only [Bool.and_eq_true, decide_eq_true_eq, UInt8.le_iff_toNat_le, UInt8.reduceToNat]
    omega
  · rw [isTrailing_iff]
    omega

end Ranges

theorem isTrailing_ofNat {y : Nat} (h : y < 64) : isTrailing (UInt8.ofNat (y + 128)) = true := by
  rw [isTrailing_iff, UInt8.toNat_ofNat_of_lt' (show y + 128 < 256 by omega)]
  omega

theorem payload_ofNat {y : Nat} (h : y < 64) : payload (UInt8.ofNat (y + 128)) = y := by
  rw [payload, UInt8.toNat_ofNat_of_lt' (show y + 128 < 256 by omega)]
  omega

theorem secondOfThree_ofNat {x y : Nat} (hx : x < 16) (hy : y < 64) (hl : x = 0 → 32 ≤ y)
    (hs : x = 13 → y < 32) :
    secondOfThree (UInt8.ofNat (x + 224)) (UInt8.ofNat (y + 128)) = true := by
  rw [secondOfThree_iff, UInt8.toNat_ofNat_of_lt' (show x + 224 < 256 by omega),
    UInt8.toNat_ofNat_of_lt' (show y + 128 < 256 by omega)]
  omega

theorem secondOfFour_ofNat {x y : Nat} (hx : x ≤ 4) (hy : y < 64) (hl : x = 0 → 16 ≤ y)
    (hs : x = 4 → y < 16) :
    secondOfFour (UInt8.ofNat (x + 240)) (UInt8.ofNat (y + 128)) = true := by
  rw [secondOfFour_iff, UInt8.toNat_ofNat_of_lt' (show x + 240 < 256 by omega),
    UInt8.toNat_ofNat_of_lt' (show y + 128 < 256 by omega)]
  omega

/-! ### The head of an encoding, by its length -/

theorem leading_one {v : Nat} (h : v < 128) (rest : Bytes) :
    leading (UInt8.ofNat v) rest = .scalar (Char.ofNat v) rest := by
  have ha : (UInt8.ofNat v).toNat = v := UInt8.toNat_ofNat_of_lt' (show v < 256 by omega)
  have hlt : UInt8.ofNat v < 0x80 := by
    rw [UInt8.lt_iff_toNat_lt, ha]
    exact h
  rw [leading, if_pos hlt, ha]

theorem leading_two {x y : Nat} (hl : 2 ≤ x) (hx : x < 32) (hy : y < 64) (rest : Bytes) :
    leading (UInt8.ofNat (x + 192)) (UInt8.ofNat (y + 128) :: rest) =
      .scalar (Char.ofNat (x * 64 + y)) rest := by
  have ha : (UInt8.ofNat (x + 192)).toNat = x + 192 :=
    UInt8.toNat_ofNat_of_lt' (show x + 192 < 256 by omega)
  simp only [leading, UInt8.lt_iff_toNat_lt, UInt8.le_iff_toNat_le, ha, UInt8.reduceToNat,
    Bool.and_eq_true, decide_eq_true_eq]
  rw [if_neg (by omega), if_pos (by omega), leadingTwo, if_pos (isTrailing_ofNat hy), ha,
    payload_ofNat hy, show (x + 192) % 32 = x by omega]

theorem leading_three {x y z : Nat} (hx : x < 16) (hy : y < 64) (hz : z < 64)
    (hl : x = 0 → 32 ≤ y) (hs : x = 13 → y < 32) (rest : Bytes) :
    leading (UInt8.ofNat (x + 224)) (UInt8.ofNat (y + 128) :: UInt8.ofNat (z + 128) :: rest) =
      .scalar (Char.ofNat ((x * 64 + y) * 64 + z)) rest := by
  have ha : (UInt8.ofNat (x + 224)).toNat = x + 224 :=
    UInt8.toNat_ofNat_of_lt' (show x + 224 < 256 by omega)
  simp only [leading, UInt8.lt_iff_toNat_lt, UInt8.le_iff_toNat_le, ha, UInt8.reduceToNat,
    Bool.and_eq_true, decide_eq_true_eq]
  rw [if_neg (by omega), if_neg (by omega), if_pos (by omega)]
  simp only [leadingThree, secondOfThree_ofNat hx hy hl hs, isTrailing_ofNat hz, payload_ofNat hy,
    payload_ofNat hz, ha, if_true, show (x + 224) % 16 = x by omega]

theorem leading_four {w x y z : Nat} (hw : w ≤ 4) (hx : x < 64) (hy : y < 64) (hz : z < 64)
    (hl : w = 0 → 16 ≤ x) (hs : w = 4 → x < 16) (rest : Bytes) :
    leading (UInt8.ofNat (w + 240))
        (UInt8.ofNat (x + 128) :: UInt8.ofNat (y + 128) :: UInt8.ofNat (z + 128) :: rest) =
      .scalar (Char.ofNat (((w * 64 + x) * 64 + y) * 64 + z)) rest := by
  have ha : (UInt8.ofNat (w + 240)).toNat = w + 240 :=
    UInt8.toNat_ofNat_of_lt' (show w + 240 < 256 by omega)
  simp only [leading, UInt8.lt_iff_toNat_lt, UInt8.le_iff_toNat_le, ha, UInt8.reduceToNat,
    Bool.and_eq_true, decide_eq_true_eq]
  rw [if_neg (by omega), if_neg (by omega), if_neg (by omega), if_pos (by omega)]
  simp only [leadingFour, secondOfFour_ofNat hw hx hl hs, isTrailing_ofNat hy, isTrailing_ofNat hz,
    payload_ofNat hx, payload_ofNat hy, payload_ofNat hz, ha, if_true,
    show (w + 240) % 8 = w by omega]

/-! ### Encodings of texts -/

/-- An ASCII character is one octet. -/
theorem utf8EncodeChar_of_lt {c : Char} (h : c.toNat < 128) :
    String.utf8EncodeChar c = [UInt8.ofNat c.toNat] :=
  if_pos (Nat.le_of_lt_succ h)

/-- A character that is not ASCII has no octet of an ASCII character. -/
theorem le_of_mem_utf8EncodeChar {c : Char} (h : 128 ≤ c.toNat) {b : UInt8}
    (hb : b ∈ String.utf8EncodeChar c) : 128 ≤ b.toNat := by
  have hc : 128 ≤ c.val.toNat := h
  have hlt := val_lt c
  unfold String.utf8EncodeChar at hb
  generalize c.val.toNat = v at hb hc hlt
  dsimp only at hb
  split at hb
  · omega
  split at hb
  · simp only [List.mem_cons, List.not_mem_nil, or_false] at hb
    rcases hb with rfl | rfl <;> (rw [UInt8.toNat_ofNat']; omega)
  split at hb
  · simp only [List.mem_cons, List.not_mem_nil, or_false] at hb
    rcases hb with rfl | rfl | rfl <;> (rw [UInt8.toNat_ofNat']; omega)
  · simp only [List.mem_cons, List.not_mem_nil, or_false] at hb
    rcases hb with rfl | rfl | rfl | rfl <;> (rw [UInt8.toNat_ofNat']; omega)

/-- No character is a surrogate. -/
theorem val_lt_or_lt (c : Char) : c.val.toNat < 0xD800 ∨ 0xDFFF < c.val.toNat := by
  rcases c.valid with h | ⟨h, -⟩
  · exact .inl h
  · exact .inr h

/-- The octets of a character are read as that character, whatever follows them. -/
theorem exists_leading_eq_scalar (c : Char) (rest : Bytes) :
    ∃ a bs, String.utf8EncodeChar c ++ rest = a :: bs ∧ leading a bs = .scalar c rest := by
  have hc : Char.ofNat c.val.toNat = c := Char.ofNat_toNat c
  have hlt := val_lt c
  have hs := val_lt_or_lt c
  have hmod (n : Nat) : n % 64 < 64 := Nat.mod_lt n (by decide)
  unfold String.utf8EncodeChar
  generalize c.val.toNat = v at hc hlt hs
  subst hc
  dsimp only
  -- one case for each length; the digits of `v` make up `v`
  split
  · exact ⟨_, _, rfl, leading_one (by omega) rest⟩
  split
  · refine ⟨_, _, rfl, (leading_two (by omega) (by omega) (hmod v) rest).trans ?_⟩
    rw [show v / 64 % 32 * 64 + v % 64 = v by omega]
  split
  · refine ⟨_, _, rfl, (leading_three (by omega) (hmod _) (hmod v) (by omega) (by omega)
      rest).trans ?_⟩
    rw [show (v / 4096 % 16 * 64 + v / 64 % 64) * 64 + v % 64 = v by omega]
  · refine ⟨_, _, rfl, (leading_four (by omega) (hmod _) (hmod _) (hmod v) (by omega) (by omega)
      rest).trans ?_⟩
    rw [show ((v / 262144 % 8 * 64 + v / 4096 % 64) * 64 + v / 64 % 64) * 64 + v % 64 = v by omega]

theorem decodeLossyList_append (c : Char) (rest : Bytes) :
    decodeLossyList (String.utf8EncodeChar c ++ rest) = c :: decodeLossyList rest := by
  obtain ⟨a, bs, he, hl⟩ := exists_leading_eq_scalar c rest
  rw [he, decodeLossyList]
  split
  · next d _ h =>
    cases hl.symm.trans h
    rfl
  · next h => cases hl.symm.trans h
  · next h => cases hl.symm.trans h

theorem decodeLossyList_encodeList (cs : List Char) : decodeLossyList (encodeList cs) = cs := by
  induction cs with
  | nil => rw [encodeList_nil, decodeLossyList]
  | cons c cs ih => rw [encodeList_cons, decodeLossyList_append, ih]

theorem decodeFrom_append (index : Nat) (c : Char) (rest : Bytes) :
    decodeFrom index (String.utf8EncodeChar c ++ rest) =
      (decodeFrom (index + c.utf8Size) rest).map (c :: ·) := by
  obtain ⟨a, bs, he, hl⟩ := exists_leading_eq_scalar c rest
  rw [he, decodeFrom]
  split
  · next d _ h =>
    cases hl.symm.trans h
    rfl
  · next h => cases hl.symm.trans h
  · next h => cases hl.symm.trans h

theorem decodeFrom_encodeList (index : Nat) (cs : List Char) :
    decodeFrom index (encodeList cs) = .ok cs := by
  induction cs generalizing index with
  | nil => rw [encodeList_nil, decodeFrom]
  | cons c cs ih => rw [encodeList_cons, decodeFrom_append, ih]; rfl

/-- The octets of a text are a text. -/
theorem decode_encode (s : String) : decode (encode s) = .ok s := by
  rw [decode, encode, decodeFrom_encodeList]
  exact congrArg Except.ok String.ofList_toList

/-- A text is read from its octets without a loss. -/
theorem decodeLossy_encode (s : String) : decodeLossy (encode s) = s := by
  rw [decodeLossy, encode, decodeLossyList_encodeList, String.ofList_toList]

end RestDispatch.Utf8
