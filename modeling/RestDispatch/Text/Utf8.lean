/-!
# UTF-8

Octet strings as texts. `leading` reads what stands at the head of an octet string: a scalar value
in its only encoding, the longest octets that no scalar value can begin with, or the proper
beginning of an encoding. `decode` accepts the encodings of texts and locates the first fault of
any other string; `decodeLossy` puts U+FFFD for each fault.
-/

namespace RestDispatch

/-- Octets, as they come from and go to the network. -/
abbrev Bytes := List UInt8

namespace Utf8

/-- The octets of a text. -/
def encodeList (cs : List Char) : Bytes := cs.flatMap String.utf8EncodeChar

/-- The octets of a text. -/
def encode (s : String) : Bytes := encodeList s.toList

@[simp] theorem encodeList_nil : encodeList [] = [] := rfl

@[simp] theorem encodeList_cons (c : Char) (cs : List Char) :
    encodeList (c :: cs) = String.utf8EncodeChar c ++ encodeList cs := rfl

@[simp] theorem encodeList_append (cs ds : List Char) :
    encodeList (cs ++ ds) = encodeList cs ++ encodeList ds := by
  simp [encodeList]

/-- What stands at the head of an octet string. -/
inductive Leading
  /-- A scalar value, then the octets after its encoding. -/
  | scalar (c : Char) (rest : Bytes)
  /-- The octets of the given number begin no encoding. -/
  | invalid (length : Nat) (rest : Bytes)
  /-- The string ends inside an encoding. -/
  | incomplete
  deriving DecidableEq

/-- A trailing octet `10xxxxxx`. -/
def isTrailing (b : UInt8) : Bool := 0x80 ≤ b && b ≤ 0xBF

/-- The payload of a trailing octet. -/
def payload (b : UInt8) : Nat := b.toNat % 64

/-- The second octets that may follow a leading octet of a three octet encoding: no encoding is
longer than it has to be, and the surrogates have none. -/
def secondOfThree (a b : UInt8) : Bool :=
  if a = 0xE0 then 0xA0 ≤ b && b ≤ 0xBF
  else if a = 0xED then 0x80 ≤ b && b ≤ 0x9F
  else isTrailing b

/-- The second octets that may follow a leading octet of a four octet encoding: no encoding is
longer than it has to be, and the last scalar value is U+10FFFF. -/
def secondOfFour (a b : UInt8) : Bool :=
  if a = 0xF0 then 0x90 ≤ b && b ≤ 0xBF
  else if a = 0xF4 then 0x80 ≤ b && b ≤ 0x8F
  else isTrailing b

/-- The head of a string whose first octet `a` leads two octets. -/
def leadingTwo (a : UInt8) : Bytes → Leading
  | [] => .incomplete
  | b :: rest =>
    if isTrailing b then .scalar (Char.ofNat (a.toNat % 32 * 64 + payload b)) rest
    else .invalid 1 (b :: rest)

/-- The head of a string whose first octet `a` leads three octets. -/
def leadingThree (a : UInt8) : Bytes → Leading
  | [] => .incomplete
  | b :: rest =>
    if secondOfThree a b then
      match rest with
      | [] => .incomplete
      | c :: rest =>
        if isTrailing c then
          .scalar (Char.ofNat ((a.toNat % 16 * 64 + payload b) * 64 + payload c)) rest
        else .invalid 2 (c :: rest)
    else .invalid 1 (b :: rest)

/-- The head of a string whose first octet `a` leads four octets. -/
def leadingFour (a : UInt8) : Bytes → Leading
  | [] => .incomplete
  | b :: rest =>
    if secondOfFour a b then
      match rest with
      | [] => .incomplete
      | c :: rest =>
        if isTrailing c then
          match rest with
          | [] => .incomplete
          | d :: rest =>
            if isTrailing d then
              .scalar (Char.ofNat
                (((a.toNat % 8 * 64 + payload b) * 64 + payload c) * 64 + payload d)) rest
            else .invalid 3 (d :: rest)
        else .invalid 2 (c :: rest)
    else .invalid 1 (b :: rest)

/-- The head of the string `a :: rest`. -/
def leading (a : UInt8) (rest : Bytes) : Leading :=
  if a < 0x80 then .scalar (Char.ofNat a.toNat) rest
  else if 0xC2 ≤ a && a ≤ 0xDF then leadingTwo a rest
  else if 0xE0 ≤ a && a ≤ 0xEF then leadingThree a rest
  else if 0xF0 ≤ a && a ≤ 0xF4 then leadingFour a rest
  else .invalid 1 rest

/-- What remains after the head of a string is no longer than what followed its first octet. -/
theorem length_le_of_leading {a : UInt8} {bs rest : Bytes} :
    (∀ c, leading a bs = .scalar c rest → rest.length ≤ bs.length) ∧
      (∀ n, leading a bs = .invalid n rest → rest.length ≤ bs.length) := by
  unfold leading leadingTwo leadingThree leadingFour
  constructor <;> intro x h <;> split at h <;> grind

/-- Why an octet string is no text, and after how many octets. -/
inductive Fault
  | invalid (length index : Nat)
  | incomplete (index : Nat)
  deriving DecidableEq

/-- The wording of a fault. -/
def Fault.message : Fault → String
  | .invalid length index =>
    "invalid utf-8 sequence of " ++ toString length ++ " bytes from index " ++ toString index
  | .incomplete index => "incomplete utf-8 byte sequence from index " ++ toString index

/-- The characters of an octet string of which `index` octets have been read. -/
def decodeFrom (index : Nat) : Bytes → Except Fault (List Char)
  | [] => .ok []
  | a :: bs =>
    match h : leading a bs with
    | .scalar c rest =>
      have : rest.length ≤ bs.length := length_le_of_leading.1 c h
      (decodeFrom (index + c.utf8Size) rest).map (c :: ·)
    | .invalid n _ => .error (.invalid n index)
    | .incomplete => .error (.incomplete index)
  termination_by bs => bs.length

/-- The text of an octet string. -/
def decode (bs : Bytes) : Except Fault String := (decodeFrom 0 bs).map String.ofList

/-- The characters of an octet string, with U+FFFD for every fault. -/
def decodeLossyList : Bytes → List Char
  | [] => []
  | a :: bs =>
    match h : leading a bs with
    | .scalar c rest =>
      have : rest.length ≤ bs.length := length_le_of_leading.1 c h
      c :: decodeLossyList rest
    | .invalid n rest =>
      have : rest.length ≤ bs.length := length_le_of_leading.2 n h
      '\uFFFD' :: decodeLossyList rest
    | .incomplete => ['\uFFFD']
  termination_by bs => bs.length

/-- The text of an octet string, with U+FFFD for every fault. -/
def decodeLossy (bs : Bytes) : String := String.ofList (decodeLossyList bs)

end Utf8
end RestDispatch
