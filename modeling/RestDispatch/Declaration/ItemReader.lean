import RestDispatch.Declaration.Item

/-!
# The reader of items

What the item of a declaration is read by. The contents of its fields and variants are not looked
at.
-/

namespace RestDispatch.Declaration

open Reader

/-- Reads the path and the arguments of an attribute. -/
def readMeta : Reader Attribute := do
  let absolute ← readAbsolute
  let w ← anyWord
  let path : KeyPath := ⟨absolute, w :: (← readMoreNames ((← peek).length + 1))⟩
  match ← peek with
  | .group _ content :: _ => advance 1; return ⟨path, .list content⟩
  | .mark '=' _ :: _ => skipAll; return ⟨path, .assigned⟩
  | _ => return ⟨path, .none⟩

/-- Reads the attributes before an item. -/
def readAttributes : Nat → Reader (List Attribute)
  | 0 => return []
  | fuel + 1 => do
    if startsWithMark '#' (← peek) then
      advance 1
      let a ← within .bracket readMeta
      return a :: (← readAttributes fuel)
    else return []

/-- Passes over the visibility of an item. -/
def skipVisibility : Reader Unit := do
  if startsWithWord "pub" (← peek) then
    advance 1
    match ← peek with
    | .group .parenthesis (.word w :: _) :: _ =>
      if ["crate", "self", "super", "in"].contains w then advance 1
    | _ => return

/-- The tokens after the bracket that closes `depth` opened ones. -/
def skipAngles (depth : Nat) : List Token → List Token
  | [] => []
  | .mark '-' true :: .mark '>' _ :: ts => skipAngles depth ts
  | .mark '<' _ :: ts => skipAngles (depth + 1) ts
  | .mark '>' _ :: ts =>
    match depth with
    | 0 => ts
    | d + 1 => skipAngles d ts
  | _ :: ts => skipAngles depth ts

theorem skipAngles_suffix (depth : Nat) (ts : List Token) : skipAngles depth ts <:+ ts := by
  fun_induction skipAngles depth ts with
  | case1 => exact List.suffix_refl _
  | case2 depth j ts ih => exact ih.trans ((List.suffix_cons _ _).trans (List.suffix_cons _ _))
  | case3 | case5 | case6 => next ih => exact ih.trans (List.suffix_cons _ _)
  | case4 => exact List.suffix_cons _ _

/-- Reads the parameters of an item; the result is whether it has any. -/
def readGenerics : Reader Bool := do
  match ← peek with
  | .mark '<' _ :: rest =>
    advance 1
    replace (skipAngles 0) (skipAngles_suffix 0)
    return !startsWithMark '>' rest
  | _ => return false

/-- Passes over the conditions on an item's parameters. -/
def skipWhere : Reader Bool := do
  if startsWithWord "where" (← peek) then
    replace (List.dropWhile fun t => !(t.isMark ';' || t.isGroup .brace))
      fun _ => List.dropWhile_suffix _
    return true
  else return false

/-- Alternatives in a message. -/
def oneOf : List String → String
  | [] => ""
  | [a] => a
  | [a, b] => a ++ " or " ++ b
  | as => "one of: " ++ String.intercalate ", " as

/-- Reads the fields of a struct. -/
def readFields : Reader ItemKind := do
  let conditions ← skipWhere
  match ← peek with
  | .mark ';' _ :: _ => advance 1; return .unitStruct
  | .group .brace _ :: _ => advance 1; return .fieldedStruct
  | .group .parenthesis _ :: _ =>
    if conditions then refuse (oneOf ["curly braces", "`;`"])
    else
      advance 1
      let conditions ← skipWhere
      if startsWithMark ';' (← peek) then advance 1; return .fieldedStruct
      else refuse (oneOf (if conditions then ["`;`"] else ["`where`", "`;`"]))
  | _ =>
    refuse (oneOf (if conditions then ["curly braces", "`;`"]
      else ["`where`", "parentheses", "curly braces", "`;`"]))

/-- Reads the braces of an item. -/
def readBraces : Reader Unit := do
  let _ ← skipWhere
  skipGroup .brace

/-- Reads an item. -/
def readItem : Reader Item := do
  let attributes ← readAttributes (← peek).length
  skipVisibility
  match ← peek with
  | .word "struct" :: _ =>
    advance 1
    let n ← name
    let generic ← readGenerics
    return ⟨attributes, ← readFields, n, generic⟩
  | .word "enum" :: _ =>
    advance 1
    let n ← name
    let generic ← readGenerics
    readBraces
    return ⟨attributes, .enumeration, n, generic⟩
  | .word "union" :: _ =>
    advance 1
    let n ← name
    let generic ← readGenerics
    readBraces
    return ⟨attributes, .union, n, generic⟩
  | _ => refuse "one of: `struct`, `enum`, `union`"

/-- The item that a list of tokens is. -/
def Item.ofTokens (ts : List Token) : Except DeclarationFault Item := do
  let (item, cursor) ← readItem.run ⟨ts, none⟩
  match cursor.stray, cursor.tokens with
  | some d, _ => throw (.unexpectedToken (some d))
  | none, [] => return item
  | none, _ :: _ => throw (.unexpectedToken none)

end RestDispatch.Declaration
