import RestDispatch.Declaration.Cursor

/-!
# Paths of attributes and keys

The path that names an attribute, or a key in one: names with double colons between them.
-/

namespace RestDispatch.Declaration

/-- The path of an attribute or of a key in one. -/
structure KeyPath where
  absolute : Bool
  names : List String
  deriving DecidableEq

/-- The name that a path consists of, if it is a single one. -/
def KeyPath.single? (p : KeyPath) : Option String :=
  match p.absolute, p.names with
  | false, [n] => some n
  | _, _ => none

open Reader

/-- Reads the names after a double colon. -/
def readMoreNames : Nat → Reader (List String)
  | 0 => refuse "identifier"
  | fuel + 1 => do
    if startsWithPair ':' ':' (← peek) then
      advance 2
      let w ← anyWord
      return w :: (← readMoreNames fuel)
    else return []

/-- Reads the double colon that a path may begin with. -/
def readAbsolute : Reader Bool := do
  if startsWithPair ':' ':' (← peek) then advance 2; return true else return false

/-- Reads the path of a key. -/
def readKeyPath : Reader KeyPath := do
  let absolute ← readAbsolute
  match ← peek with
  | .word w :: _ =>
    advance 1
    return ⟨absolute, w :: (← readMoreNames ((← peek).length + 1))⟩
  | [] => refuse "nested attribute"
  | .literal _ _ :: _ => throw .literalAsKey
  | _ => throw .tokenAsKey

end RestDispatch.Declaration
