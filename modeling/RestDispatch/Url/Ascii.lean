import RestDispatch.Url.Address
import RestDispatch.Url.Domain
import RestDispatch.Url.Punycode

/-!
# Names in ASCII

The mapping of the names that are in ASCII already: they are written in lower case, and their labels
in the ASCII form of another script have to be such a form. Other names are no names here.
-/

namespace RestDispatch.DomainNames

/-- Whether a label is one that a host name may hold. -/
def isLabel (cs : List Char) : Bool :=
  match cs with
  | 'x' :: 'n' :: '-' :: '-' :: rest =>
    match Punycode.decode? rest with
    | some ds =>
      ds.any (fun c => 0x80 ≤ c.toNat) && ds.all fun c => c.toNat < 0x80 || 0xA0 < c.toNat
    | none => false
  | _ => true

/-- Whether a character is one of an ASCII name. -/
def isNameChar (c : Char) : Bool :=
  0x20 < c.toNat && c.toNat ≤ 0x7E && c != '%' && !forbidden.contains c

/-- The names in ASCII. -/
instance ascii : DomainNames where
  toAscii bs :=
    match Utf8.decode bs with
    | .error _ => none
    | .ok s =>
      let name := s.toList.map Char.toLower
      if name.all isNameChar && (Address.splitAt '.' name).all isLabel then some name else none

end RestDispatch.DomainNames
