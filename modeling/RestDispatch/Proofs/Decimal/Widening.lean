import Mathlib.Algebra.Order.Ring.Nat
import RestDispatch.Decimal.Binary

/-!
# Widened numbers

A number of 32 bits is finite exactly if it is so as one of 64 bits (`isFinite_widen`). The greatest
finite magnitude of the narrow word is below `2 ^ 128`, and `round_lt_infinity` says that nothing
below that is rounded to an infinite word of the wide one.
-/

namespace RestDispatch.Decimal

namespace Width

theorem roundQuotient_le (num den : Nat) : roundQuotient num den ≤ num / den + 1 := by
  unfold roundQuotient
  dsimp only
  repeat' split
  all_goals omega

/-- The order of magnitude of two numbers bounds what their scaled quotient is rounded to. -/
theorem roundQuotient_scaleBy_le {num den b : Nat} (hd : den ≠ 0) {s : Int}
    (h : (num.log2 : Int) + 1 - den.log2 ≤ b + s) :
    roundQuotient (scaleBy (-s) num den).1 (scaleBy (-s) num den).2 ≤ 2 ^ b := by
  have hnum : num < 2 ^ (num.log2 + 1) := Nat.lt_log2_self
  have hden : 2 ^ den.log2 ≤ den := Nat.log2_self_le hd
  have hlt : (scaleBy (-s) num den).1 / (scaleBy (-s) num den).2 < 2 ^ b := by
    unfold scaleBy
    split
    · refine Nat.div_lt_of_lt_mul ?_
      calc num * 2 ^ (-s).toNat
          < 2 ^ (num.log2 + 1) * 2 ^ (-s).toNat :=
            Nat.mul_lt_mul_of_pos_right hnum (Nat.two_pow_pos _)
        _ = 2 ^ (num.log2 + 1 + (-s).toNat) := (Nat.pow_add ..).symm
        _ ≤ 2 ^ (den.log2 + b) := Nat.pow_le_pow_right (by decide) (by omega)
        _ = 2 ^ den.log2 * 2 ^ b := Nat.pow_add ..
        _ ≤ den * 2 ^ b := Nat.mul_le_mul_right _ hden
    · refine Nat.div_lt_of_lt_mul ?_
      rw [Int.neg_neg]
      calc num < 2 ^ (num.log2 + 1) := hnum
        _ ≤ 2 ^ (den.log2 + s.toNat + b) := Nat.pow_le_pow_right (by decide) (by omega)
        _ = 2 ^ den.log2 * 2 ^ s.toNat * 2 ^ b := by rw [Nat.pow_add, Nat.pow_add]
        _ ≤ den * 2 ^ s.toNat * 2 ^ b :=
            Nat.mul_le_mul_right _ (Nat.mul_le_mul_right _ hden)
  exact Nat.le_trans (roundQuotient_le _ _) hlt

theorem floorLog_bounds (num den : Nat) :
    (num.log2 : Int) - den.log2 - 1 ≤ floorLog num den ∧
      floorLog num den ≤ (num.log2 : Int) - den.log2 := by
  unfold floorLog
  dsimp only
  split <;> omega

/-- A magnitude below `2 ^ 128` is rounded to a finite word of 64 bits. -/
theorem round_lt_infinity {num den : Nat} (h : (num.log2 : Int) - den.log2 ≤ 127) :
    binary64.round num den < binary64.infinity := by
  unfold round
  split
  · decide
  · next hz =>
    obtain ⟨hlow, hhigh⟩ := floorLog_bounds num den
    have hleast : binary64.leastScale = -1074 := rfl
    have hfraction : (binary64.fractionBits : Int) = 52 := rfl
    have hscale : max (floorLog num den - binary64.fractionBits) binary64.leastScale ≤ 75 := by
      omega
    have hquotient := @roundQuotient_scaleBy_le num den 54 (fun e => hz (.inr e))
      (max (floorLog num den - binary64.fractionBits) binary64.leastScale) (by omega)
    generalize max (floorLog num den - binary64.fractionBits) binary64.leastScale = scale at *
    have hinfinity : binary64.infinity = 2047 * 2 ^ 52 := rfl
    refine Nat.lt_of_le_of_lt (Nat.min_le_left _ _) ?_
    show (scale - binary64.leastScale).toNat * 2 ^ 52 + roundQuotient _ _ < _
    omega

theorem parts_bounds {word : Nat} (h : word < binary32.infinity) :
    (binary32.parts word).1 < 2 ^ 24 ∧ (binary32.parts word).2 ≤ 104 := by
  have hword : word < 255 * 2 ^ 23 := h
  have hleast : binary32.leastScale = -149 := rfl
  have hfraction : Nat.pow 2 binary32.fractionBits = 2 ^ 23 := rfl
  unfold parts
  simp only [hfraction, hleast]
  split <;> omega

theorem log2_lt_of_lt {n b : Nat} (hb : 0 < b) (h : n < 2 ^ b) : n.log2 < b := by
  by_cases hn : n = 0
  · rw [hn]
    exact hb
  · exact (Nat.log2_lt hn).2 h

/-- The finite magnitudes of 32 bits are below `2 ^ 128`. -/
theorem log2_quotient_le {word : Nat} (h : word < binary32.infinity) :
    ((binary32.quotient word).1.log2 : Int) - (binary32.quotient word).2.log2 ≤ 127 := by
  obtain ⟨hm, hk⟩ := parts_bounds h
  unfold quotient scaleBy
  dsimp only
  generalize binary32.parts word = p at hm hk ⊢
  split
  · have hlt : p.1 * 2 ^ p.2.toNat < 2 ^ 128 :=
      calc p.1 * 2 ^ p.2.toNat
          < 2 ^ 24 * 2 ^ p.2.toNat := Nat.mul_lt_mul_of_pos_right hm (Nat.two_pow_pos _)
        _ = 2 ^ (24 + p.2.toNat) := (Nat.pow_add ..).symm
        _ ≤ 2 ^ 128 := Nat.pow_le_pow_right (by decide) (by omega)
    have hlog := log2_lt_of_lt (by decide) hlt
    show ((p.1 * 2 ^ p.2.toNat).log2 : Int) - _ ≤ 127
    omega
  · have hlog := log2_lt_of_lt (by decide) hm
    show (p.1.log2 : Int) - _ ≤ 127
    omega

end Width

namespace Floating

/-- Widening keeps finite numbers finite, and no other number becomes one. -/
theorem isFinite_widen (x : Single) : x.widen.isFinite = x.isFinite := by
  unfold widen
  cases hx : x.isFinite with
  | true =>
    have hword : x.word < binary32.infinity := by simpa [isFinite] using hx
    exact decide_eq_true (Width.round_lt_infinity (Width.log2_quotient_le hword))
  | false =>
    rw [if_neg Bool.false_ne_true]
    split
    · exact decide_eq_false (Nat.lt_irrefl _)
    · exact decide_eq_false (by decide)

end Floating
end RestDispatch.Decimal
