import RestDispatch.Json.Token

/-!
# Values that are passed over

The value of a field that a shape does not name is checked for its grammar alone: its numbers may be
of any size, its strings may hold any octets and any escapes of four digits, and its depth is
without a limit. `closeFrames` shows where the lists and objects around a value end.
-/

namespace RestDispatch.Json

/-- A list or an object that has not ended. -/
inductive Frame
  | list
  | object
  deriving DecidableEq

/-- The octet that ends a frame. -/
def Frame.close : Frame → UInt8
  | .list => ']'.toUInt8
  | .object => '\x7d'.toUInt8

/-- Passes over an escape after its backslash. -/
def skipEscape : Bytes → Except Fault Bytes
  | [] => faultAt [] .endInString
  | b :: bs =>
    if b = 'u'.toUInt8 then (readHex bs).map Prod.snd
    else if ['"', '\\', '/', 'b', 'f', 'n', 'r', 't'].any fun c => b = c.toUInt8 then .ok bs
    else faultAt bs .invalidEscape

/-- Passes over a string after its opening quote. -/
def skipPieces : Nat → Bytes → Except Fault Bytes
  | 0, _ => faultAt [] .endInString
  | _ + 1, [] => faultAt [] .endInString
  | fuel + 1, b :: bs =>
    if b = '"'.toUInt8 then .ok bs
    else if b = '\\'.toUInt8 then skipEscape bs >>= skipPieces fuel
    else if b < 0x20 then faultAt (b :: bs) .controlCharacter
    else skipPieces fuel bs

/-- Passes over a string after its opening quote. -/
def skipString (bs : Bytes) : Except Fault Bytes := skipPieces (bs.length + 1) bs

/-- Passes over an exponent after its letter. -/
def skipExponent (bs : Bytes) : Except Fault Bytes :=
  match (takeExponentSign bs).2 with
  | [] => faultAt [] .invalidNumber
  | b :: rest => if isDigit b then .ok (rest.dropWhile isDigit) else faultAt rest .invalidNumber

/-- Passes over an exponent, if one comes next. -/
def skipTail : Bytes → Except Fault Bytes
  | [] => .ok []
  | b :: bs => if b = 'e'.toUInt8 ∨ b = 'E'.toUInt8 then skipExponent bs else .ok (b :: bs)

/-- Passes over what follows the whole part of a numeral. -/
def skipAfterWhole : Bytes → Except Fault Bytes
  | [] => .ok []
  | b :: bs =>
    if b = '.'.toUInt8 then
      if startsWithDigit bs then skipTail (bs.dropWhile isDigit) else faultPast bs .invalidNumber
    else skipTail (b :: bs)

/-- Passes over a numeral after its sign. -/
def skipNumber : Bytes → Except Fault Bytes
  | [] => faultAt [] .invalidNumber
  | b :: bs =>
    if b = '0'.toUInt8 then
      if startsWithDigit bs then faultPast bs .invalidNumber else skipAfterWhole bs
    else if isDigit b then skipAfterWhole (bs.dropWhile isDigit)
    else faultAt bs .invalidNumber

/-- Ends the frames that end here. The result is the frames that remain and the octets of their next
item, or what follows the outermost frame where none remains; `after` says whether an item of the
innermost frame stands before. -/
def closeFrames (after : Bool) : List Frame → Bytes → Except Fault (List Frame × Bytes)
  | [], bs => .ok ([], bs)
  | f :: fs, bs =>
    match skipBlank bs with
    | [] => faultPast [] (if f = .list then .endInList else .endInObject)
    | b :: rest =>
      if b = ','.toUInt8 ∧ after then .ok (f :: fs, rest)
      else if b = f.close then closeFrames true fs rest
      else if after then
        faultPast (b :: rest) (if f = .list then .expectedListEnd else .expectedObjectEnd)
      else .ok (f :: fs, b :: rest)

/-- Passes over the key and the colon before a value of an object. -/
def skipKey (bs : Bytes) : Except Fault Bytes :=
  match skipBlank bs with
  | [] => faultPast [] .endInObject
  | b :: rest =>
    if b = '"'.toUInt8 then skipString rest >>= readColon else faultPast (b :: rest) .keyNotString

/-- Passes over the head of a value: a scalar, or the opening of a frame. -/
def skipHead (bs : Bytes) : Except Fault (Option Frame × Bytes) :=
  match skipBlank bs with
  | [] => faultPast [] .endInValue
  | b :: rest =>
    if b = 'n'.toUInt8 then (readWord ['u', 'l', 'l'] rest).map (none, ·)
    else if b = 't'.toUInt8 then (readWord ['r', 'u', 'e'] rest).map (none, ·)
    else if b = 'f'.toUInt8 then (readWord ['a', 'l', 's', 'e'] rest).map (none, ·)
    else if b = '-'.toUInt8 then (skipNumber rest).map (none, ·)
    else if isDigit b then (skipNumber (b :: rest)).map (none, ·)
    else if b = '"'.toUInt8 then (skipString rest).map (none, ·)
    else if b = '['.toUInt8 then .ok (some .list, rest)
    else if b = '\x7b'.toUInt8 then .ok (some .object, rest)
    else faultPast (b :: rest) .expectedValue

/-- Passes over a value inside frames and over all that follows it in them; `fuel` bounds the number
of values. -/
def skipFrames : Nat → List Frame → Bytes → Except Fault Bytes
  | 0, _, _ => faultAt [] .endInValue
  | fuel + 1, frames, bs => do
    let (opened, rest) ← skipHead bs
    let (frames, rest) ← match opened with
      | some f => closeFrames false (f :: frames) rest
      | none => closeFrames true frames rest
    match frames with
    | [] => return rest
    | .list :: _ => skipFrames fuel frames rest
    | .object :: _ => skipKey rest >>= skipFrames fuel frames

/-- Passes over a value. -/
def skipValue (bs : Bytes) : Except Fault Bytes := skipFrames (bs.length + 1) [] bs

end RestDispatch.Json
