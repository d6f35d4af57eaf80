import RestDispatch.Text.Utf8

/-!
# Percent-encoding

Texts in the parts of a URL. A character that a part does not admit is written by the octets of its
encoding, each after a percent sign; the sets of such characters differ from part to part.
-/

namespace RestDispatch.Percent

/-- A hexadecimal digit with a capital letter. -/
def upperDigit (n : Nat) : Char :=
  if n < 10 then Char.ofNat ('0'.toNat + n) else Char.ofNat ('A'.toNat + n - 10)

/-- An octet after a percent sign. -/
def octet (b : UInt8) : List Char := ['%', upperDigit (b.toNat / 16), upperDigit (b.toNat % 16)]

/-- A text in which the ASCII characters that `keep` admits stand for themselves. -/
def encode (keep : Char → Bool) (cs : List Char) : List Char :=
  cs.flatMap fun c =>
    if c.toNat < 128 ∧ keep c then [c] else (String.utf8EncodeChar c).flatMap octet

/-- The characters other than controls and those of a list. -/
def allBut (set : List Char) (c : Char) : Bool :=
  0x20 ≤ c.toNat && c.toNat < 0x7F && !set.contains c

/-- The characters that a fragment does not admit. -/
def fragmentSet : List Char := [' ', '"', '<', '>', '\x60']

/-- The characters that a path does not admit. -/
def pathSet : List Char := fragmentSet ++ ['#', '?', '\x7b', '\x7d']

/-- The characters that a user name or a password does not admit. -/
def userInfoSet : List Char := pathSet ++ ['/', ':', ';', '=', '@', '[', '\\', ']', '^', '|']

/-- The characters that a query does not admit. -/
def querySet : List Char := [' ', '"', '#', '<', '>']

/-- The characters that a query does not admit under the schemes of the web. -/
def webQuerySet : List Char := querySet ++ ['\x27']

/-- The value of a hexadecimal digit. -/
def digit? (b : UInt8) : Option Nat :=
  let n := b.toNat
  if 0x30 ≤ n ∧ n ≤ 0x39 then some (n - 0x30)
  else if 0x41 ≤ n ∧ n ≤ 0x46 then some (n - 0x41 + 10)
  else if 0x61 ≤ n ∧ n ≤ 0x66 then some (n - 0x61 + 10)
  else none

/-- The octets that a text stands for; a percent sign without two digits stands for itself. -/
def decode : Bytes → Bytes
  | a :: b :: c :: rest =>
    if a = '%'.toUInt8 then
      match digit? b, digit? c with
      | some x, some y => (16 * x + y).toUInt8 :: decode rest
      | _, _ => a :: decode (b :: c :: rest)
    else a :: decode (b :: c :: rest)
  | bs => bs

@[simp] theorem encode_nil (keep : Char → Bool) : encode keep [] = [] := rfl

@[simp] theorem encode_append (keep : Char → Bool) (cs ds : List Char) :
    encode keep (cs ++ ds) = encode keep cs ++ encode keep ds := by
  simp [encode]

/-- Characters that are all admitted stand for themselves. -/
theorem encode_eq_self {keep : Char → Bool} {cs : List Char}
    (h : ∀ c ∈ cs, c.toNat < 128 ∧ keep c = true) : encode keep cs = cs := by
  induction cs with
  | nil => rfl
  | cons c cs ih =>
    have hc := h c (by simp)
    simp only [encode, List.flatMap_cons, hc, and_self, if_true, List.singleton_append]
    exact congrArg (c :: ·) (ih fun d hd => h d (by simp [hd]))

end RestDispatch.Percent
