import RestDispatch.Url.Address
import RestDispatch.Url.Domain
import RestDispatch.Url.Fault
import RestDispatch.Url.Percent

/-!
# Hosts

The host of a URL: a name or an address. Under the schemes of the web a name may be percent-encoded,
is written in its ASCII form and is an address if that ends in a number. Under other schemes a name
is kept as it is written. A file may have no host, which is a name without characters.
-/

namespace RestDispatch

open Address

/-- A host. -/
inductive Host
  | name (s : String)
  | four (address : Nat)
  | eight (pieces : List Nat)
  deriving DecidableEq

namespace Host

/-- The host that is left out. -/
def none : Host := .name ""

/-- The text of a host. -/
def text : Host → String
  | .name s => s
  | .four n => String.ofList (fourText n)
  | .eight ps => String.ofList ('[' :: eightText ps ++ [']'])

/-- Reads an address in brackets. -/
def readBracketed (cs : List Char) : Except UrlFault Host :=
  if cs.getLast? = some ']' then
    match readEight? (cs.drop 1).dropLast with
    | some ps => .ok (.eight ps)
    | Option.none => .error .invalidIpv6
  else .error .invalidIpv6

/-- Reads a host under a scheme of the web. -/
def readWeb [DomainNames] (cs : List Char) : Except UrlFault Host :=
  if cs.head? = some '[' then readBracketed cs
  else
    match DomainNames.toAscii (Percent.decode (Utf8.encodeList cs)) with
    | Option.none => .error .invalidDomain
    | some ascii =>
      if ascii = [] then .error .emptyHost
      else if endsInNumber ascii then
        match readFour? ascii with
        | some n => .ok (.four n)
        | Option.none => .error .invalidIpv4
      else .ok (.name (String.ofList ascii))

/-- Reads a host under any other scheme. -/
def readOther (cs : List Char) : Except UrlFault Host :=
  if cs.head? = some '[' then readBracketed cs
  else if cs.any DomainNames.forbidden.contains then .error .invalidHostCharacter
  else .ok (.name (String.ofList (Percent.encode (Percent.allBut []) cs)))

end Host
end RestDispatch
