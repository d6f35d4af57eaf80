import RestDispatch.Text.Utf8

/-!
# Base64

Octets as texts of 64 letters, three octets by four letters, with equals signs where octets lack.
-/

namespace RestDispatch.Text

/-- The letter of a number below 64. -/
def letter64 (n : Nat) : Char :=
  if n < 26 then Char.ofNat ('A'.toNat + n)
  else if n < 52 then Char.ofNat ('a'.toNat + n - 26)
  else if n < 62 then Char.ofNat ('0'.toNat + n - 52)
  else if n = 62 then '+'
  else '/'

/-- The text of octets. -/
def base64 : Bytes → List Char
  | [] => []
  | [a] =>
    let n := a.toNat * 16
    [letter64 (n / 64), letter64 (n % 64), '=', '=']
  | [a, b] =>
    let n := (a.toNat * 256 + b.toNat) * 4
    [letter64 (n / 4096), letter64 (n / 64 % 64), letter64 (n % 64), '=']
  | a :: b :: c :: rest =>
    let n := (a.toNat * 256 + b.toNat) * 256 + c.toNat
    letter64 (n / 262144) :: letter64 (n / 4096 % 64) :: letter64 (n / 64 % 64) ::
      letter64 (n % 64) :: base64 rest

example : base64 (Utf8.encode "user:pw") = "dXNlcjpwdw==".toList := by decide +kernel

end RestDispatch.Text
