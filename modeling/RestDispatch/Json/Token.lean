import RestDispatch.Json.Fault

/-!
# Tokens of JSON texts

Blanks, words, numbers and strings at the head of an octet string. Every function returns what it
has read together with the octets that follow. A numeral is taken as an integer where it is one of
64 bits; otherwise its leading digits, as many as fit in 64 bits, are scaled by a power of ten.
-/

namespace RestDispatch.Json

open Decimal

/-- An octet that separates tokens. -/
def isSeparator (b : UInt8) : Bool := b = 0x20 || b = 0x0A || b = 0x09 || b = 0x0D

/-- The octets from the next token on. -/
def skipBlank (bs : Bytes) : Bytes := bs.dropWhile isSeparator

/-- A decimal digit. -/
def isDigit (b : UInt8) : Bool := 0x30 ≤ b && b ≤ 0x39

/-- The value of a decimal digit. -/
def digitValue (b : UInt8) : Nat := b.toNat - 0x30

/-- Whether a digit comes next. -/
def startsWithDigit : Bytes → Bool
  | [] => false
  | b :: _ => isDigit b

/-- Reads the rest of a word. -/
def readWord : List Char → Bytes → Except Fault Bytes
  | [], bs => .ok bs
  | _ :: _, [] => faultAt [] .endInValue
  | c :: cs, b :: bs => if b = c.toUInt8 then readWord cs bs else faultAt bs .expectedWord

/-! ### Numbers -/

/-- Reads digits after the number `acc`, as long as the number fits in 64 bits. -/
def takeSignificand (acc : Nat) : Bytes → Nat × Bytes
  | [] => (acc, [])
  | b :: bs =>
    if isDigit b ∧ 10 * acc + digitValue b < 0x10000000000000000 then
      takeSignificand (10 * acc + digitValue b) bs
    else (acc, b :: bs)

/-- The quotient that the number nearest to a power of ten stands for. -/
def powerOfTen (e : Nat) : Nat × Nat := binary64.quotient (binary64.round (Nat.pow 10 e) 1)

/-- A number over `10 ^ e`, rounded at each division by a power of at most 308. -/
def scaleDown (x : Double) (e : Nat) : Double :=
  if e ≤ 308 then x.scaled (powerOfTen e).2 (powerOfTen e).1
  else if x.isZero then x
  else scaleDown (x.scaled (powerOfTen 308).2 (powerOfTen 308).1) (e - 308)
  termination_by e

/-- The number `± significand * 10 ^ e`, where `rest` follows it. -/
def fromParts (negative : Bool) (significand : Nat) (e : Int) (rest : Bytes) :
    Except Fault (JsonNumber × Bytes) :=
  let x : Double := .ofQuotient negative significand 1
  if e < 0 then .ok (.float (scaleDown x e.natAbs), rest)
  else if e ≤ 308 then
    let y := x.scaled (powerOfTen e.natAbs).1 (powerOfTen e.natAbs).2
    if y.isFinite then .ok (.float y, rest) else faultAt rest .numberOutOfRange
  else if x.isZero then .ok (.float x, rest)
  else faultAt rest .numberOutOfRange

/-- Reads the digits of an exponent up to the first that takes it to `2 ^ 31`. -/
def takeExponent (acc : Nat) : Bytes → Option Nat × Bytes
  | [] => (some acc, [])
  | b :: bs =>
    if isDigit b then
      if 10 * acc + digitValue b < 0x80000000 then takeExponent (10 * acc + digitValue b) bs
      else (none, bs)
    else (some acc, b :: bs)

/-- The sign of an exponent; none is positive. -/
def takeExponentSign : Bytes → Bool × Bytes
  | [] => (false, [])
  | b :: bs => if b = '+'.toUInt8 then (false, bs) else if b = '-'.toUInt8 then (true, bs)
    else (false, b :: bs)

/-- Reads an exponent after its letter. -/
def readExponent (negative : Bool) (significand : Nat) (start : Int) (bs : Bytes) :
    Except Fault (JsonNumber × Bytes) :=
  let s := takeExponentSign bs
  match s.2 with
  | [] => faultAt [] .endInValue
  | b :: rest =>
    if isDigit b then
      match takeExponent (digitValue b) rest with
      | (some e, rest) => fromParts negative significand (if s.1 then start - e else start + e) rest
      | (none, rest) =>
        if significand ≠ 0 ∧ s.1 = false then faultAt rest .numberOutOfRange
        else .ok (.float ⟨negative, 0⟩, rest.dropWhile isDigit)
    else faultAt rest .invalidNumber

/-- Reads an exponent, if one comes next. -/
def readTail (negative : Bool) (significand : Nat) (e : Int) (bs : Bytes) :
    Except Fault (JsonNumber × Bytes) :=
  match bs with
  | b :: rest =>
    if b = 'e'.toUInt8 ∨ b = 'E'.toUInt8 then readExponent negative significand e rest
    else fromParts negative significand e bs
  | [] => fromParts negative significand e bs

/-- Reads the digits after a point. Those that do not fit in the significand are passed over. -/
def readFraction (negative : Bool) (significand : Nat) (start : Int) (bs : Bytes) :
    Except Fault (JsonNumber × Bytes) :=
  let t := takeSignificand significand bs
  let count := bs.length - t.2.length
  if startsWithDigit t.2 then readTail negative t.1 (start - count) (t.2.dropWhile isDigit)
  else if count = 0 then faultPast t.2 (if t.2 = [] then .endInValue else .invalidNumber)
  else readTail negative t.1 (start - count) t.2

/-- An integer with its sign; zero with a minus sign, and what does not fit, is no integer. -/
def signedInteger (negative : Bool) (n : Nat) : JsonNumber :=
  let i : Int := if negative then -n else n
  match Integer64.ofInt? i with
  | some i => if negative ∧ n = 0 then .float ⟨true, 0⟩ else .integer i
  | none => .float (.ofQuotient negative n 1)

/-- Reads what follows the whole part of a numeral. -/
def readAfterWhole (negative : Bool) (significand : Nat) (bs : Bytes) :
    Except Fault (JsonNumber × Bytes) :=
  match bs with
  | b :: rest =>
    if b = '.'.toUInt8 then readFraction negative significand 0 rest
    else if b = 'e'.toUInt8 ∨ b = 'E'.toUInt8 then readExponent negative significand 0 rest
    else .ok (signedInteger negative significand, bs)
  | [] => .ok (signedInteger negative significand, bs)

/-- Reads what follows as many digits of the whole part as fit. -/
def readLongWhole (negative : Bool) (significand : Nat) (bs : Bytes) :
    Except Fault (JsonNumber × Bytes) :=
  let rest := bs.dropWhile isDigit
  let count := bs.length - rest.length
  match rest with
  | b :: more =>
    if b = '.'.toUInt8 then readFraction negative significand count more
    else readTail negative significand count rest
  | [] => readTail negative significand count rest

/-- Reads a numeral after its sign. -/
def readNumber (negative : Bool) : Bytes → Except Fault (JsonNumber × Bytes)
  | [] => faultAt [] .endInValue
  | b :: bs =>
    if b = '0'.toUInt8 then
      if startsWithDigit bs then faultPast bs .invalidNumber else readAfterWhole negative 0 bs
    else if isDigit b then
      let t := takeSignificand (digitValue b) bs
      if startsWithDigit t.2 then readLongWhole negative t.1 t.2
      else readAfterWhole negative t.1 t.2
    else faultAt bs .invalidNumber

/-! ### Strings -/

/-- The value of a hexadecimal digit. -/
def hexValue? (b : UInt8) : Option Nat :=
  if isDigit b then some (digitValue b)
  else if 0x41 ≤ b && b ≤ 0x46 then some (b.toNat - 0x41 + 10)
  else if 0x61 ≤ b && b ≤ 0x66 then some (b.toNat - 0x61 + 10)
  else none

/-- Reads four hexadecimal digits. -/
def readHex : Bytes → Except Fault (Nat × Bytes)
  | a :: b :: c :: d :: rest =>
    match hexValue? a, hexValue? b, hexValue? c, hexValue? d with
    | some a, some b, some c, some d => .ok (((a * 16 + b) * 16 + c) * 16 + d, rest)
    | _, _, _, _ => faultAt rest .invalidEscape
  | _ => faultAt [] .endInString

/-- Reads an octet that a surrogate has to be followed by. -/
def readExactly (c : Char) : Bytes → Except Fault Bytes
  | [] => faultAt [] .endInString
  | b :: bs => if b = c.toUInt8 then .ok bs else faultAt bs .endOfHexEscape

/-- Reads a hexadecimal escape after its letter; a leading surrogate takes a second escape, the
trailing surrogate, with it. -/
def readUnicodeEscape (bs : Bytes) : Except Fault (Bytes × Bytes) := do
  let (n, rest) ← readHex bs
  if 0xDC00 ≤ n ∧ n ≤ 0xDFFF then faultAt rest .loneSurrogate
  else if n < 0xD800 ∨ 0xDBFF < n then return (String.utf8EncodeChar (Char.ofNat n), rest)
  else
    let rest ← readExactly '\\' rest
    let rest ← readExactly 'u' rest
    let (m, rest) ← readHex rest
    if m < 0xDC00 ∨ 0xDFFF < m then faultAt rest .loneSurrogate
    else return (String.utf8EncodeChar
      (Char.ofNat ((n - 0xD800) * 0x400 + (m - 0xDC00) + 0x10000)), rest)

/-- Reads an escape after its backslash. -/
def readEscape : Bytes → Except Fault (Bytes × Bytes)
  | [] => faultAt [] .endInString
  | b :: bs =>
    if b = '"'.toUInt8 ∨ b = '\\'.toUInt8 ∨ b = '/'.toUInt8 then .ok ([b], bs)
    else if b = 'b'.toUInt8 then .ok ([0x08], bs)
    else if b = 'f'.toUInt8 then .ok ([0x0C], bs)
    else if b = 'n'.toUInt8 then .ok ([0x0A], bs)
    else if b = 'r'.toUInt8 then .ok ([0x0D], bs)
    else if b = 't'.toUInt8 then .ok ([0x09], bs)
    else if b = 'u'.toUInt8 then readUnicodeEscape bs
    else faultAt bs .invalidEscape

/-- Reads the octets of a string after its opening quote; `fuel` bounds the number of pieces. -/
def readPieces : Nat → Bytes → Except Fault (Bytes × Bytes)
  | 0, _ => faultAt [] .endInString
  | _ + 1, [] => faultAt [] .endInString
  | fuel + 1, b :: bs =>
    if b = '"'.toUInt8 then .ok ([], bs)
    else if b = '\\'.toUInt8 then do
      let (piece, rest) ← readEscape bs
      let (more, rest) ← readPieces fuel rest
      return (piece ++ more, rest)
    else if b < 0x20 then faultAt bs .controlCharacter
    else do
      let (more, rest) ← readPieces fuel bs
      return (b :: more, rest)

/-- Reads a string after its opening quote. Octets that are no text are refused at the closing
quote. -/
def readString (bs : Bytes) : Except Fault (String × Bytes) := do
  let (octets, rest) ← readPieces (bs.length + 1) bs
  match Utf8.decode octets with
  | .ok s => return (s, rest)
  | .error _ => faultAt ('"'.toUInt8 :: rest) .invalidCodePoint

/-! ### Lists and objects -/

/-- What comes next in a list or an object: its end, or an item. -/
inductive Next
  | closed (rest : Bytes)
  | item (rest : Bytes)

/-- Goes to the next item of a list, or past its end. -/
def nextItem (first : Bool) (bs : Bytes) : Except Fault Next :=
  match skipBlank bs with
  | [] => faultPast [] .endInList
  | b :: rest =>
    if b = ']'.toUInt8 then .ok (.closed rest)
    else if first then .ok (.item (b :: rest))
    else if b = ','.toUInt8 then
      match skipBlank rest with
      | [] => faultPast [] .endInValue
      | c :: more =>
        if c = ']'.toUInt8 then faultPast (c :: more) .trailingComma else .ok (.item (c :: more))
    else faultPast (b :: rest) .expectedListEnd

/-- Goes into the next key of an object, or past the object's end. -/
def nextKey (first : Bool) (bs : Bytes) : Except Fault Next :=
  match skipBlank bs with
  | [] => faultPast [] .endInObject
  | b :: rest =>
    if b = '\x7d'.toUInt8 then .ok (.closed rest)
    else if first then
      if b = '"'.toUInt8 then .ok (.item rest) else faultPast (b :: rest) .keyNotString
    else if b = ','.toUInt8 then
      match skipBlank rest with
      | [] => faultPast [] .endInValue
      | c :: more =>
        if c = '"'.toUInt8 then .ok (.item more)
        else if c = '\x7d'.toUInt8 then faultPast (c :: more) .trailingComma
        else faultPast (c :: more) .keyNotString
    else faultPast (b :: rest) .expectedObjectEnd

/-- Reads the colon after a key. -/
def readColon (bs : Bytes) : Except Fault Bytes :=
  match skipBlank bs with
  | [] => faultPast [] .endInObject
  | b :: rest =>
    if b = ':'.toUInt8 then .ok rest else faultPast (b :: rest) .expectedColon

/-- Reads the end of a list of which every item that is wanted has been read. -/
def closeList (bs : Bytes) : Except Fault Bytes :=
  match skipBlank bs with
  | [] => faultPast [] .endInList
  | b :: rest =>
    if b = ']'.toUInt8 then .ok rest
    else if b = ','.toUInt8 then
      match skipBlank rest with
      | [] => faultPast [] .trailingCharacters
      | c :: more =>
        faultPast (c :: more) (if c = ']'.toUInt8 then .trailingComma else .trailingCharacters)
    else faultPast (b :: rest) .trailingCharacters

end RestDispatch.Json
