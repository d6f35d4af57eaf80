import Mathlib.Order.Monotone.Basic
import RestDispatch.Proofs.Text.Utf8

/-!
# Well-formed octets

The first octet of a spelling tells how many octets there are, and the others carry a mark, so that
each number of octets spells a value in one way. A sequence is the shortest spelling of a scalar
value: the longer ones of the same value are none, and neither are those of surrogates and of values
above U+10FFFF. `isSequence_iff_exists_encode` says that the sequences are the encodings of the
characters, and `isSequence_iff_layout` and the lemmas on `Begins` which octets may stand in them.
-/

namespace RestDispatch.Utf8

/-! ### Sequences -/

/-- Octets that spell a value. The mark of the first octet tells how many there are, each other one
has a mark of its own, and what is left of them are the binary digits of the value. -/
inductive Spells : Bytes → Nat → Prop
  | one {a : UInt8} {v : Nat} (ha : a.toNat / 128 = 0b0) (hv : a.toNat = v) : Spells [a] v
  | two {a b : UInt8} {v : Nat} (ha : a.toNat / 32 = 0b110) (hb : b.toNat / 64 = 0b10)
      (hv : a.toNat % 32 * 64 + b.toNat % 64 = v) : Spells [a, b] v
  | three {a b c : UInt8} {v : Nat} (ha : a.toNat / 16 = 0b1110) (hb : b.toNat / 64 = 0b10)
      (hc : c.toNat / 64 = 0b10)
      (hv : (a.toNat % 16 * 64 + b.toNat % 64) * 64 + c.toNat % 64 = v) : Spells [a, b, c] v
  | four {a b c d : UInt8} {v : Nat} (ha : a.toNat / 8 = 0b11110) (hb : b.toNat / 64 = 0b10)
      (hc : c.toNat / 64 = 0b10) (hd : d.toNat / 64 = 0b10)
      (hv : ((a.toNat % 8 * 64 + b.toNat % 64) * 64 + c.toNat % 64) * 64 + d.toNat % 64 = v) :
      Spells [a, b, c, d] v

/-- A sequence: octets that spell a scalar value, no fewer of which would do. -/
def IsSequence (u : Bytes) : Prop :=
  ∃ v : Nat, Spells u v ∧ v.isValidChar ∧ ∀ w, Spells w v → u.length ≤ w.length

/-- Octets that are made up of sequences. -/
inductive WellFormed : Bytes → Prop
  | nil : WellFormed []
  | append {u rest : Bytes} (hu : IsSequence u) (h : WellFormed rest) : WellFormed (u ++ rest)

/-- Octets with which a sequence begins that does not end with them. -/
def Begins (p : Bytes) : Prop := ∃ q, q ≠ [] ∧ IsSequence (p ++ q)

/-- The first value that no spelling in the given number of octets holds. -/
def capacity : Nat → Nat
  | 0 => 0
  | 1 => 0x80
  | 2 => 0x800
  | 3 => 0x10000
  | _ => 0x200000

theorem capacity_mono : Monotone capacity :=
  monotone_nat_of_le_succ fun n => by
    match n with
    | 0 | 1 | 2 => decide
    | 3 => decide
    | _ + 4 => exact Nat.le_refl _

theorem Spells.lt_capacity {u : Bytes} {v : Nat} (h : Spells u v) : v < capacity u.length := by
  cases h with
  | one ha hv =>
    show v < 0x80
    omega
  | two ha hb hv =>
    show v < 0x800
    omega
  | three ha hb hc hv =>
    show v < 0x10000
    omega
  | four ha hb hc hd hv =>
    show v < 0x200000
    omega

/-- A value has one spelling in each number of octets. -/
theorem Spells.eq_of_length {u w : Bytes} {v : Nat} (hu : Spells u v) (hw : Spells w v)
    (h : u.length = w.length) : u = w := by
  cases hu <;> cases hw <;> cases h <;> simp only [List.cons.injEq, and_true, ← UInt8.toNat_inj] <;>
    omega

/-- The octets of a character spell its value. -/
theorem spells_encode (c : Char) : Spells (String.utf8EncodeChar c) c.val.toNat := by
  have hlt := val_lt c
  unfold String.utf8EncodeChar
  generalize c.val.toNat = v at hlt
  dsimp only
  split
  · constructor <;> simp only [UInt8.toNat_ofNat'] <;> omega
  split
  · constructor <;> simp only [UInt8.toNat_ofNat'] <;> omega
  split
  · constructor <;> simp only [UInt8.toNat_ofNat'] <;> omega
  · constructor <;> simp only [UInt8.toNat_ofNat'] <;> omega

/-- A character takes no more octets than its value needs. -/
theorem capacity_le (c : Char) :
    capacity ((String.utf8EncodeChar c).length - 1) ≤ c.val.toNat := by
  unfold String.utf8EncodeChar
  generalize c.val.toNat = v
  dsimp only
  split
  · exact Nat.zero_le v
  split
  · show 0x80 ≤ v
    omega
  split
  · show 0x800 ≤ v
    omega
  · show 0x10000 ≤ v
    omega

/-- A value that does not fit into fewer octets has no shorter spelling. -/
theorem Spells.le_length {w : Bytes} {v n : Nat} (h : Spells w v) (hn : capacity (n - 1) ≤ v) :
    n ≤ w.length := by
  by_contra hlt
  have hmono := capacity_mono (show w.length ≤ n - 1 by omega)
  have hfits := h.lt_capacity
  omega

theorem isSequence_encode (c : Char) : IsSequence (String.utf8EncodeChar c) :=
  ⟨_, spells_encode c, c.valid, fun _ hw => hw.le_length (capacity_le c)⟩

/-- The sequences are the encodings of the characters. -/
theorem isSequence_iff_exists_encode {u : Bytes} :
    IsSequence u ↔ ∃ c, String.utf8EncodeChar c = u := by
  constructor
  · rintro ⟨v, hu, hv, hshort⟩
    obtain ⟨c, rfl⟩ : ∃ c : Char, c.val.toNat = v := ⟨Char.ofNatAux v hv, rfl⟩
    have hc := spells_encode c
    exact ⟨c, hc.eq_of_length hu (Nat.le_antisymm (hu.le_length (capacity_le c)) (hshort _ hc))⟩
  · rintro ⟨c, rfl⟩
    exact isSequence_encode c

/-- The sequences are the spellings of scalar values that do not fit into fewer octets. -/
theorem isSequence_iff {u : Bytes} :
    IsSequence u ↔ ∃ v : Nat, Spells u v ∧ v.isValidChar ∧ capacity (u.length - 1) ≤ v := by
  constructor
  · intro h
    obtain ⟨c, rfl⟩ := isSequence_iff_exists_encode.1 h
    exact ⟨_, spells_encode c, c.valid, capacity_le c⟩
  · rintro ⟨v, hu, hv, hcapacity⟩
    exact ⟨v, hu, hv, fun _ hw => hw.le_length hcapacity⟩

/-! ### Sequences by their octets -/

/-- The sequences by the ranges of their octets. -/
inductive Layout : Bytes → Prop
  | one {a : UInt8} (ha : a.toNat < 0x80) : Layout [a]
  | two {a b : UInt8} (ha : 0xC2 ≤ a.toNat ∧ a.toNat ≤ 0xDF) (hb : isTrailing b = true) :
      Layout [a, b]
  | three {a b c : UInt8} (ha : 0xE0 ≤ a.toNat ∧ a.toNat ≤ 0xEF) (hb : secondOfThree a b = true)
      (hc : isTrailing c = true) : Layout [a, b, c]
  | four {a b c d : UInt8} (ha : 0xF0 ≤ a.toNat ∧ a.toNat ≤ 0xF4) (hb : secondOfFour a b = true)
      (hc : isTrailing c = true) (hd : isTrailing d = true) : Layout [a, b, c, d]

theorem Layout.length_le {u : Bytes} (h : Layout u) : u.length ≤ 4 := by
  cases h <;> simp

theorem isSequence_iff_layout {u : Bytes} : IsSequence u ↔ Layout u := by
  simp only [isSequence_iff, Nat.isValidChar]
  constructor
  · rintro ⟨v, h, hv, hcapacity⟩
    cases h with
    | one ha => exact .one (by omega)
    | two ha hb =>
      have hcapacity : 0x80 ≤ v := hcapacity
      exact .two (by omega) (isTrailing_iff.2 hb)
    | three ha hb hc =>
      have hcapacity : 0x800 ≤ v := hcapacity
      exact .three (by omega) (secondOfThree_iff.2 (by omega)) (isTrailing_iff.2 hc)
    | four ha hb hc hd =>
      have hcapacity : 0x10000 ≤ v := hcapacity
      exact .four (by omega) (secondOfFour_iff.2 (by omega)) (isTrailing_iff.2 hc)
        (isTrailing_iff.2 hd)
  · intro h
    cases h with
    | one ha => exact ⟨_, .one (by omega) rfl, by omega, Nat.zero_le _⟩
    | two ha hb =>
      have hb := isTrailing_iff.1 hb
      exact ⟨_, .two (by omega) hb rfl, by omega, show 0x80 ≤ _ by omega⟩
    | three ha hb hc =>
      have hb := secondOfThree_iff.1 hb
      have hc := isTrailing_iff.1 hc
      exact ⟨_, .three (by omega) hb.1 hc rfl, by omega, show 0x800 ≤ _ by omega⟩
    | four ha hb hc hd =>
      have hb := secondOfFour_iff.1 hb
      have hc := isTrailing_iff.1 hc
      have hd := isTrailing_iff.1 hd
      exact ⟨_, .four (by omega) hb.1 hc hd rfl, by omega, show 0x10000 ≤ _ by omega⟩

section Begins

variable {a b c : UInt8} {p q : Bytes}

theorem Begins.of_append (h : Begins (p ++ q)) : Begins p := by
  obtain ⟨r, hr, h⟩ := h
  refine ⟨q ++ r, by simp [hr], ?_⟩
  rwa [← List.append_assoc]

theorem Begins.length_le (h : Begins p) : p.length ≤ 3 := by
  obtain ⟨q, hq, h⟩ := h
  have hl := (isSequence_iff_layout.1 h).length_le
  have hpos := List.length_pos_iff.2 hq
  rw [List.length_append] at hl
  omega

theorem begins_two : Begins [a, b] ↔
    (0xE0 ≤ a.toNat ∧ a.toNat ≤ 0xEF) ∧ secondOfThree a b = true ∨
      (0xF0 ≤ a.toNat ∧ a.toNat ≤ 0xF4) ∧ secondOfFour a b = true := by
  constructor
  · rintro ⟨q, hq, h⟩
    cases isSequence_iff_layout.1 h with
    | two => exact absurd rfl hq
    | three ha hb => exact .inl ⟨ha, hb⟩
    | four ha hb => exact .inr ⟨ha, hb⟩
  · have ht : isTrailing 0x80 = true := rfl
    rintro (⟨ha, hb⟩ | ⟨ha, hb⟩)
    · exact ⟨[0x80], List.cons_ne_nil _ _, isSequence_iff_layout.2 (.three ha hb ht)⟩
    · exact ⟨[0x80, 0x80], List.cons_ne_nil _ _, isSequence_iff_layout.2 (.four ha hb ht ht)⟩

theorem begins_one : Begins [a] ↔ 0xC2 ≤ a.toNat ∧ a.toNat ≤ 0xF4 := by
  constructor
  · rintro ⟨q, hq, h⟩
    cases isSequence_iff_layout.1 h with
    | one => exact absurd rfl hq
    | two ha => omega
    | three ha => omega
    | four ha => omega
  · intro ha
    -- some octet may follow the first one, and the shortest such sequence is taken
    by_cases htwo : a.toNat ≤ 0xDF
    · exact ⟨[0x80], List.cons_ne_nil _ _, isSequence_iff_layout.2 (.two ⟨ha.1, htwo⟩ rfl)⟩
    by_cases hthree : a.toNat ≤ 0xEF
    · have hb : secondOfThree a (if a.toNat = 0xE0 then 0xA0 else 0x80) = true := by
        rw [secondOfThree_iff]
        split <;> simp only [UInt8.reduceToNat, true_and] <;> omega
      exact (begins_two.2 (.inl ⟨by omega, hb⟩)).of_append (q := [_])
    · have hb : secondOfFour a (if a.toNat = 0xF0 then 0x90 else 0x80) = true := by
        rw [secondOfFour_iff]
        split <;> simp only [UInt8.reduceToNat, true_and] <;> omega
      exact (begins_two.2 (.inr ⟨by omega, hb⟩)).of_append (q := [_])

theorem begins_three : Begins [a, b, c] ↔
    (0xF0 ≤ a.toNat ∧ a.toNat ≤ 0xF4) ∧ secondOfFour a b = true ∧ isTrailing c = true := by
  constructor
  · rintro ⟨q, hq, h⟩
    cases isSequence_iff_layout.1 h with
    | three => exact absurd rfl hq
    | four ha hb hc => exact ⟨ha, hb, hc⟩
  · rintro ⟨ha, hb, hc⟩
    exact ⟨[0x80], List.cons_ne_nil _ _, isSequence_iff_layout.2 (.four ha hb hc rfl)⟩

end Begins

end RestDispatch.Utf8
