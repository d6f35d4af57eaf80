import RestDispatch.Decimal.Digits
import RestDispatch.Text.Quoted

/-!
# Network addresses

Addresses in the place of a host name. An address of four octets is up to four numbers, of which the
last fills what the others leave; an address of eight pieces is written with the longest run of
zeros left out.
-/

namespace RestDispatch.Address

open Decimal

/-- The parts of a text between the marks `mark`. -/
def splitAt (mark : Char) : List Char → List (List Char)
  | [] => [[]]
  | c :: cs =>
    match splitAt mark cs with
    | part :: parts => if c = mark then [] :: part :: parts else (c :: part) :: parts
    | [] => [[c]]

/-- The number of a part of an address: decimal, octal after a zero, hexadecimal after `0x`. -/
def readNumber? (cs : List Char) : Option Nat :=
  match cs with
  | [] => none
  | '0' :: 'x' :: ds | '0' :: 'X' :: ds => readBase 16 0 ds
  | '0' :: d :: ds => readBase 8 0 (d :: ds)
  | ds => readBase 10 0 ds

/-- The parts of a name, without an empty one at its end. -/
def parts (cs : List Char) : List (List Char) :=
  let ps := splitAt '.' cs
  if 1 < ps.length ∧ ps.getLast? = some [] then ps.dropLast else ps

/-- Whether a name has to be an address: its last part is a number. -/
def endsInNumber (cs : List Char) : Bool :=
  match (parts cs).getLast? with
  | some last => (last != [] && last.all Char.isDigit) || (readNumber? last).isSome
  | none => false

/-- The address of numbers, of which the last fills the octets that are left. -/
def ofNumbers? : List Nat → Option Nat
  | [] => none
  | ns =>
    let first := ns.dropLast
    let last := ns.getLast?.getD 0
    if ns.length ≤ 4 ∧ first.all (· ≤ 255) ∧ last < Nat.pow 256 (4 - first.length) then
      some (first.foldr (fun n acc => n * 0x1000000 + acc / 256) 0 + last)
    else none

/-- Reads an address of four octets. -/
def readFour? (cs : List Char) : Option Nat :=
  ((parts cs).mapM readNumber?).bind ofNumbers?

/-- The text of an address of four octets. -/
def fourText (n : Nat) : List Char :=
  let octet := fun k => (toString (n / Nat.pow 256 k % 256)).toList
  octet 3 ++ '.' :: octet 2 ++ '.' :: octet 1 ++ '.' :: octet 0

/-- Reads four octets in decimal without leading zeros, as two pieces. -/
def readTail? (cs : List Char) : Option (List Nat) := do
  let ns ← (splitAt '.' cs).mapM fun ds =>
    if ds.length ≤ 3 ∧ (ds.length = 1 ∨ ds.head? ≠ some '0') then readDigits? ds else none
  match ns with
  | [a, b, c, d] => if ns.all (· ≤ 255) then some [a * 256 + b, c * 256 + d] else none
  | _ => none

/-- Reads pieces after those of `done`, the last first; `gap` is the number of pieces before the
place where zeros are left out, counting one for the place itself. -/
def readPieces : Nat → List Nat → Option Nat → List Char → Option (List Nat × Option Nat)
  | 0, _, _, _ => none
  | _ + 1, done, gap, [] => some (done.reverse, gap)
  | fuel + 1, done, gap, c :: cs =>
    if done.length = 8 then none
    else if c = ':' then
      if gap.isSome then none else readPieces fuel (0 :: done) (some (done.length + 1)) cs
    else
      let ds := ((c :: cs).take 4).takeWhile fun d => (digitIn? 16 d).isSome
      let value := (readBase 16 0 ds).getD 0
      match (c :: cs).drop ds.length with
      | [] => readPieces fuel (value :: done) gap []
      | d :: rest =>
        if d = '.' then
          if ds = [] ∨ 6 < done.length then none
          else (readTail? (c :: cs)).map fun ps => (done.reverse ++ ps, gap)
        else if d = ':' ∧ rest ≠ [] then readPieces fuel (value :: done) gap rest
        else none

/-- Reads an address of eight pieces. -/
def readEight? (cs : List Char) : Option (List Nat) := do
  let (pieces, gap) ←
    match cs with
    | ':' :: ':' :: rest => readPieces (rest.length + 1) [0] (some 1) rest
    | ':' :: _ => none
    | [] => none
    | [_] => none
    | cs => readPieces (cs.length + 1) [] none cs
  match gap with
  | some k => some (pieces.take k ++ List.replicate (8 - pieces.length) 0 ++ pieces.drop k)
  | none => if pieces.length = 8 then some pieces else none

/-- The number of zeros at the head of a list. -/
def leadingZeros (ps : List Nat) : Nat := (ps.takeWhile (· = 0)).length

/-- The place and the length of the longest run of zeros, the first of several. -/
def longestZeros (ps : List Nat) : Nat × Nat :=
  (List.range ps.length).foldl
    (fun best i =>
      let n := leadingZeros (ps.drop i)
      if best.2 < n then (i, n) else best)
    (0, 0)

/-- Pieces with colons between them. -/
def joinPieces : List Nat → List Char
  | [] => []
  | [p] => Text.hex p
  | p :: ps => Text.hex p ++ ':' :: joinPieces ps

/-- The text of an address of eight pieces. -/
def eightText (ps : List Nat) : List Char :=
  let (i, n) := longestZeros ps
  if n < 2 then joinPieces ps
  else joinPieces (ps.take i) ++ [':', ':'] ++ joinPieces (ps.drop (i + n))

end RestDispatch.Address
