import RestDispatch.Decimal.Binary
import RestDispatch.Decimal.Digits

/-!
# Shortest decimal text

The fewest digits that read back as a floating-point number, and of those the nearest to it. The
digits stand positionally from `0.00001` up to below `10 ^ 16` and with an exponent outside.
-/

namespace RestDispatch.Decimal

/-- The greatest `k` with `10 ^ k ≤ num / den`, found from the guess `k`. -/
def adjustPower (num den : Nat) (k : Int) : Int :=
  let least := fun (k : Int) => if 0 ≤ k then Nat.pow 10 k.toNat * den ≤ num
    else den ≤ num * Nat.pow 10 (-k).toNat
  if least (k + 1) then k + 1 else if least k then k else k - 1

/-- The greatest `k` with `10 ^ k ≤ num / den`, for a positive quotient. -/
def floorPower (num den : Nat) : Int :=
  let e := Width.floorLog num den
  adjustPower num den (e * 30103 / 100000)

/-- The decimal number `m * 10 ^ e`. -/
structure Scientific where
  digits : Nat
  exponent : Int
  deriving DecidableEq

/-- The word of a decimal number. -/
def Scientific.word (w : Width) (s : Scientific) : Nat :=
  if 0 ≤ s.exponent then w.round (s.digits * Nat.pow 10 s.exponent.toNat) 1
  else w.round s.digits (Nat.pow 10 (-s.exponent).toNat)

/-- Of the two neighbours of `num / den` among the multiples of `10 ^ e`, the ones that read back
as the word; the nearer if both do, and the even one if both are equally near. -/
def neighbour? (w : Width) (word num den : Nat) (e : Int) : Option Scientific :=
  let p := if 0 ≤ e then (num, den * Nat.pow 10 e.toNat) else (num * Nat.pow 10 (-e).toNat, den)
  let low := p.1 / p.2
  let r := p.1 % p.2
  let below : Scientific := ⟨low, e⟩
  let above : Scientific := ⟨low + 1, e⟩
  let lowFits := low ≠ 0 ∧ below.word w = word
  let highFits := above.word w = word
  if lowFits ∧ highFits then
    some (if 2 * r < p.2 ∨ (2 * r = p.2 ∧ low % 2 = 0) then below else above)
  else if lowFits then some below
  else if highFits then some above
  else none

/-- The first of the grids from `10 ^ e` down on which a neighbour reads back. -/
def searchGrid (w : Width) (word num den : Nat) (e : Int) : Nat → Scientific
  | 0 => ⟨num / den, 0⟩
  | fuel + 1 =>
    match neighbour? w word num den e with
    | some s => s
    | none => searchGrid w word num den (e - 1) fuel

/-- The shortest decimal number that reads back as the magnitude of a nonzero word. -/
def shortest (w : Width) (word : Nat) : Scientific :=
  let q := w.quotient word
  searchGrid w word q.1 q.2 (floorPower q.1 q.2) 20

/-- The digits of a number without the zeros at its end, and how many zeros those were. -/
def stripZeros (cs : List Char) : List Char × Nat :=
  let kept := (cs.reverse.dropWhile (· = '0')).reverse
  (kept, cs.length - kept.length)

/-- The text of digits whose first has the place value `10 ^ x`: positional for `-5 ≤ x < 16`. -/
def layOut (ds : List Char) (x : Int) : List Char :=
  if -5 ≤ x ∧ x < 0 then
    '0' :: '.' :: List.replicate (-x - 1).toNat '0' ++ ds
  else if 0 ≤ x ∧ x < 16 then
    let whole := x.toNat + 1
    if ds.length ≤ whole then ds ++ List.replicate (whole - ds.length) '0' ++ ['.', '0']
    else ds.take whole ++ '.' :: ds.drop whole
  else
    let mantissa := match ds with
      | d :: e :: rest => d :: '.' :: e :: rest
      | ds => ds
    mantissa ++ 'e' :: (if x < 0 then '-' else '+') :: Nat.toDigits 10 x.natAbs

/-- The text of a finite floating-point number. -/
def Floating.text {w : Width} (x : Floating w) : List Char :=
  let magnitude :=
    if x.isZero then ['0', '.', '0']
    else
      let s := shortest w x.word
      let ds := Nat.toDigits 10 s.digits
      layOut (stripZeros ds).1 (s.exponent + ds.length - 1)
  if x.negative then '-' :: magnitude else magnitude

end RestDispatch.Decimal
