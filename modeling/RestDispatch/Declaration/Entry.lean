import RestDispatch.Declaration.Grammar

/-!
# Entries of route attributes

A route attribute lists keys with their values, and several attributes may stand on one item.
`Item.entries` lists the entries of all of them in reading order. Reading stops at the first entry
that is malformed, which is then the last of the list: an entry before it that breaks a rule for
routes is reported first.
-/

namespace RestDispatch.Declaration

/-- An entry of a route attribute. -/
inductive Entry
  | name (value : StringLiteral)
  | method (name : String)
  | url (e : Expr)
  | pathParams (t : Ty)
  | queryParams (t : Ty)
  | data (t : Ty)
  | response (format : String) (t : Option Ty)
  /-- A default query parameter; its value may be malformed. -/
  | defaultQuery (key : KeyPath) (value : Except DeclarationFault Literal)
  | malformed (fault : DeclarationFault)

open Reader

variable [Grammar]

/-- Reads the type of a response, if it has one. -/
def readResponseTy : Reader (Option Ty) := do
  if startsWithGroup .parenthesis (← peek) then
    let t ← within .parenthesis Grammar.ty
    return some t
  else return none

/-- Reads the name of a response format, and the type after it. -/
def readResponse : Reader Entry := do
  let format ← name
  let t ← readResponseTy
  return .response format t

/-- Reads the value of a key. -/
def readEntry (key : String) : Reader Entry := do
  match key with
  | "name" => mark '='; return .name (← text)
  | "method" => mark '='; return .method (← name)
  | "url" => mark '='; return .url (← Grammar.expr)
  | "path_params" => mark '='; return .pathParams (← Grammar.ty)
  | "query_params" => mark '='; return .queryParams (← Grammar.ty)
  | "data" => mark '='; return .data (← Grammar.ty)
  | "response" => mark '='; readResponse
  | _ => throw (.unknownKey key)

/-- Reads the value of a default query parameter. -/
def readDefaultValue : Reader Literal := do
  mark '='
  literal

/-- Goes on to the next entry of a list: whether there is one. -/
def readSeparator : Reader Bool := do
  if (← peek).isEmpty then return false
  else
    mark ','
    return !(← peek).isEmpty

/-- What has been read of a list: its entries, and the cursor after them unless the last of them is
malformed. -/
structure Listing where
  entries : List Entry
  rest : Option Cursor

namespace Listing

/-- Nothing but a malformed entry. -/
def failed (f : DeclarationFault) : Listing := ⟨[.malformed f], none⟩

/-- Goes on with what follows a cursor, unless an entry was malformed before. -/
def andThen (l : Listing) (next : Cursor → Listing) : Listing :=
  match l.rest with
  | some c => ⟨l.entries ++ (next c).entries, (next c).rest⟩
  | none => l

end Listing

/-- The entries of a list with commas between its items; each item has a path, and `item` reads what
follows it. -/
def readList (item : KeyPath → Cursor → Listing) : Nat → Cursor → Listing
  | 0, c => .failed (.expected "nested attribute" c.tokens.isEmpty)
  | fuel + 1, c =>
    match readKeyPath.run c with
    | .error f => .failed f
    | .ok (path, c) =>
      (item path c).andThen fun c =>
        match readSeparator.run c with
        | .error f => .failed f
        | .ok (true, c) => readList item fuel c
        | .ok (false, c) => ⟨[], some c⟩

/-- The default query parameter of a key. -/
def readDefault (key : KeyPath) (c : Cursor) : Listing :=
  match readDefaultValue.run c with
  | .error f => ⟨[.defaultQuery key (.error f)], none⟩
  | .ok (value, c) => ⟨[.defaultQuery key (.ok value)], some c⟩

/-- The default query parameters of a list between parentheses. -/
def readDefaults (c : Cursor) : Listing :=
  match c.tokens with
  | .group .parenthesis content :: rest =>
    let l := readList readDefault (Token.weightOfList content + 1) ⟨content, c.stray⟩
    ⟨l.entries, l.rest.map fun inner => ⟨rest, inner.stray⟩⟩
  | ts => .failed (.expected "parentheses" ts.isEmpty)

/-- The entries of a key. -/
def readKey (path : KeyPath) (c : Cursor) : Listing :=
  if path.single? = some "default_query" then readDefaults c
  else
    match (readEntry (path.single?.getD "")).run c with
    | .error f => .failed f
    | .ok (e, c) => ⟨[e], some c⟩

/-- The fault of tokens left over in a group. -/
def strayListing (c : Cursor) : Listing :=
  match c.stray with
  | some d => .failed (.unexpectedToken (some d))
  | none => ⟨[], some c⟩

/-- The entries of an attribute; only route attributes have any. -/
def Attribute.entries (a : Attribute) : List Entry :=
  if a.path.single? = some "route" then
    match a.arguments with
    | .none => [.malformed (.attributeWithoutArguments "route")]
    | .assigned => [.malformed (.attributeWithValue "route")]
    | .list [] => []
    | .list content =>
      ((readList readKey (Token.weightOfList content + 1) ⟨content, none⟩).andThen
        strayListing).entries
  else []

/-- The entries of all attributes of an item. -/
def Item.entries (i : Item) : List Entry := i.attributes.flatMap Attribute.entries

end RestDispatch.Declaration
