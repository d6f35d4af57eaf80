/-!
# Labels of other scripts

The ASCII form of a label of a host name in another script: its ASCII characters, a hyphen, and the
differences between the positions of the others in variable-length numerals. `decode?` reads it.
-/

namespace RestDispatch.Punycode

/-- The value of a digit. -/
def digit? (c : Char) : Option Nat :=
  if c.isDigit then some (c.toNat - '0'.toNat + 26)
  else if c.isLower then some (c.toNat - 'a'.toNat)
  else if c.isUpper then some (c.toNat - 'A'.toNat)
  else none

/-- The threshold of the digit at place `k`. -/
def threshold (k bias : Nat) : Nat := min (max (k - bias) 1) 26

/-- Halves the range of a difference until it is small. -/
def adaptFrom : Nat → Nat → Nat → Nat
  | 0, k, delta => k + 36 * delta / (delta + 38)
  | fuel + 1, k, delta =>
    if 455 < delta then adaptFrom fuel (k + 36) (delta / 35) else k + 36 * delta / (delta + 38)

/-- The bias after a difference, when `count` characters are known. -/
def adapt (delta count : Nat) (first : Bool) : Nat :=
  let delta := if first then delta / 700 else delta / 2
  adaptFrom 64 0 (delta + delta / count)

/-- Reads a numeral after the number `i`, the weight of whose next digit is `w`. -/
def readDelta (bias : Nat) : Nat → Nat → Nat → List Char → Option (Nat × List Char)
  | _, _, _, [] => none
  | k, w, i, c :: cs => do
    let d ← digit? c
    let t := threshold k bias
    let i := i + d * w
    if 0x100000000 ≤ i then none
    else if d < t then some (i, cs)
    else readDelta bias (k + 36) (w * (36 - t)) i cs

/-- Puts characters into a text by the differences of their positions. -/
def insertAll : Nat → (n i bias : Nat) → List Char → List Char → Option (List Char)
  | 0, _, _, _, _, _ => none
  | _ + 1, _, _, _, out, [] => some out
  | fuel + 1, n, i, bias, out, c :: cs => do
    let (j, rest) ← readDelta bias 36 1 i (c :: cs)
    let count := out.length + 1
    let n := n + j / count
    let place := j % count
    if n.isValidChar then
      let bias := adapt (j - i) count (i == 0)
      insertAll fuel n (place + 1) bias (out.insertIdx place (Char.ofNat n)) rest
    else none

/-- The text of a label. -/
def decode? (cs : List Char) : Option (List Char) :=
  let tail := (cs.reverse.takeWhile (· ≠ '-')).reverse
  let head := cs.take (cs.length - tail.length - 1)
  insertAll (tail.length + 1) 128 0 72 head tail

end RestDispatch.Punycode
