/-!
# Binary floating-point words

The interchange words with a sign, a biased exponent and a fraction, in both widths that values
come in. `Width.round` gives the word nearest to a quotient of natural numbers, ties to the even
word; the exponent field follows the fraction field, so the words of the magnitudes are ordered as
the magnitudes are and a carry out of the fraction needs no care.
-/

namespace RestDispatch.Decimal

/-- The field sizes of a word. -/
structure Width where
  fractionBits : Nat
  exponentBits : Nat
  deriving DecidableEq

/-- The word of 64 bits. -/
def binary64 : Width := ⟨52, 11⟩

/-- The word of 32 bits. -/
def binary32 : Width := ⟨23, 8⟩

namespace Width

variable (w : Width)

/-- The place value of the last fraction bit of the smallest magnitudes, as a power of two. -/
def leastScale : Int := 2 - Nat.pow 2 (w.exponentBits - 1) - w.fractionBits

/-- The word of positive infinity. -/
def infinity : Nat := (Nat.pow 2 w.exponentBits - 1) * Nat.pow 2 w.fractionBits

/-- The quotient of two natural numbers to the nearest natural number, ties to even. -/
def roundQuotient (num den : Nat) : Nat :=
  let q := num / den
  let r := num % den
  if 2 * r < den then q else if den < 2 * r then q + 1 else if q % 2 = 0 then q else q + 1

/-- A quotient scaled by a power of two. -/
def scaleBy (k : Int) (num den : Nat) : Nat × Nat :=
  if 0 ≤ k then (num * Nat.pow 2 k.toNat, den) else (num, den * Nat.pow 2 (-k).toNat)

/-- The largest power of two that is at most `num / den`. -/
def floorLog (num den : Nat) : Int :=
  let e : Int := (Nat.log2 num : Int) - Nat.log2 den
  let p := scaleBy (-e) num den
  if p.1 < p.2 then e - 1 else e

/-- The word of the magnitude nearest to `num / den`. -/
def round (num den : Nat) : Nat :=
  if num = 0 ∨ den = 0 then 0
  else
    let scale := max (floorLog num den - w.fractionBits) w.leastScale
    let p := scaleBy (-scale) num den
    min ((scale - w.leastScale).toNat * Nat.pow 2 w.fractionBits + roundQuotient p.1 p.2) w.infinity

/-- The significand and the scale of a finite magnitude, which is `m * 2 ^ k`. -/
def parts (word : Nat) : Nat × Int :=
  let field := word / Nat.pow 2 w.fractionBits
  let fraction := word % Nat.pow 2 w.fractionBits
  if field = 0 then (fraction, w.leastScale)
  else (fraction + Nat.pow 2 w.fractionBits, w.leastScale + field - 1)

/-- A finite magnitude as a quotient. -/
def quotient (word : Nat) : Nat × Nat :=
  let p := w.parts word
  scaleBy p.2 p.1 1

end Width

/-- A floating-point number: a sign and the word of a magnitude. -/
structure Floating (w : Width) where
  negative : Bool
  word : Nat
  deriving DecidableEq

/-- A floating-point number of 64 bits. -/
abbrev Double := Floating binary64

/-- A floating-point number of 32 bits. -/
abbrev Single := Floating binary32

namespace Floating

variable {w : Width}

/-- Neither infinite nor no number. -/
def isFinite (x : Floating w) : Bool := x.word < w.infinity

/-- Zero of either sign. -/
def isZero (x : Floating w) : Bool := x.word == 0

/-- The number nearest to a signed quotient. -/
def ofQuotient (negative : Bool) (num den : Nat) : Floating w := ⟨negative, w.round num den⟩

/-- The number nearest to an integer. -/
def ofInt (i : Int) : Floating w := ofQuotient (i < 0) i.natAbs 1

/-- The number nearest to `± m * 10 ^ e`. -/
def ofDecimal (negative : Bool) (m : Nat) (e : Int) : Floating w :=
  if 0 ≤ e then ofQuotient negative (m * Nat.pow 10 e.toNat) 1
  else ofQuotient negative m (Nat.pow 10 (-e).toNat)

/-- Infinity. -/
def infinite (negative : Bool) : Floating w := ⟨negative, w.infinity⟩

/-- No number. -/
def nan : Floating w := ⟨false, w.infinity + 1⟩

/-- The same number in the wider word. -/
def widen (x : Single) : Double :=
  if x.isFinite then ofQuotient x.negative (binary32.quotient x.word).1 (binary32.quotient x.word).2
  else if x.word = binary32.infinity then infinite x.negative
  else nan

/-- The product of a magnitude with a positive quotient, rounded once. -/
def scaled (x : Floating w) (num den : Nat) : Floating w :=
  let q := w.quotient x.word
  ofQuotient x.negative (q.1 * num) (q.2 * den)

end Floating
end RestDispatch.Decimal
