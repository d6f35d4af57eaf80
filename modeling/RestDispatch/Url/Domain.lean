import RestDispatch.Text.Utf8

/-!
# Domain names

Names of hosts may be in any script; a library for international names maps them to ASCII. A
`DomainNames` stands for the library: what a URL is, and what comes of it, is said over any mapping.
-/

namespace RestDispatch

/-- The mapping of names: the ASCII form of the name that octets spell, if they spell one. -/
class DomainNames where
  toAscii : Bytes → Option (List Char)

/-- The characters that no name of a host holds. -/
def DomainNames.forbidden : List Char :=
  ['\x00', '\t', '\n', '\r', ' ', '#', '/', ':', '<', '>', '?', '@', '[', '\\', ']', '^', '|']

end RestDispatch
