import RestDispatch.Xml.Text

/-!
# Tags of XML documents

Names and attributes in a tag, and the names of attributes that bind prefixes to namespaces. A name
is whatever stands before a space; its local part follows the first colon.
-/

namespace RestDispatch.Xml

/-- The octets of a word. -/
abbrev word (s : String) : Bytes := Utf8.encode s

/-- Octets up to a mark, and those after it. -/
def takeUntil (mark : Bytes) : Bytes → Option (Bytes × Bytes)
  | [] => none
  | b :: bs =>
    if mark.isPrefixOf (b :: bs) then some ([], (b :: bs).drop mark.length)
    else (takeUntil mark bs).map fun r => (b :: r.1, r.2)

/-- The prefix of a name, if it has one, and its local part. -/
def splitName (name : Bytes) : Option Bytes × Bytes :=
  match takeUntil [':'.toUInt8] name with
  | some (lead, rest) => (some lead, rest)
  | none => (none, name)

/-- An attribute as it is written: its name, and the octets between its quotes. -/
abbrev Attribute := Bytes × Bytes

/-- Reads an attribute, and what follows it. -/
def readAttribute : Bytes → Option (Attribute × Bytes)
  | [] => none
  | b :: bs =>
    let key := bs.takeWhile fun c => c != '='.toUInt8 && !isSpace c
    match (bs.drop key.length).dropWhile isSpace with
    | [] => none
    | c :: rest =>
      if c = '='.toUInt8 then
        match rest.dropWhile isSpace with
        | [] => none
        | q :: rest =>
          if q = '"'.toUInt8 ∨ q = '\x27'.toUInt8 then
            (takeUntil [q] rest).map fun r => ((b :: key, r.1), r.2)
          else none
      else none

/-- Reads attributes up to the first that is malformed, and whether there is none. -/
def readAttributes : Nat → Bytes → List Attribute × Bool
  | 0, _ => ([], false)
  | fuel + 1, bs =>
    match bs.dropWhile isSpace with
    | [] => ([], true)
    | b :: bs =>
      match readAttribute (b :: bs) with
      | none => ([], false)
      | some (a, rest) =>
        let r := readAttributes fuel rest
        (a :: r.1, r.2)

/-- The attributes of a tag up to the first that is malformed. -/
def leadingAttributes (bs : Bytes) : List Attribute := (readAttributes (bs.length + 1) bs).1

/-- The attributes of a tag, if all are well formed and no two have one name. -/
def attributes? (bs : Bytes) : Option (List Attribute) :=
  let r := readAttributes (bs.length + 1) bs
  if r.2 ∧ (r.1.map (·.1)).Nodup then some r.1 else none

/-! ### Namespaces -/

/-- The namespace that the prefix `xml` is bound to. -/
def xmlNamespace : Bytes := word "http://www.w3.org/XML/1998/namespace"

/-- The namespace of the attributes that bind prefixes. -/
def bindingNamespace : Bytes := word "http://www.w3.org/2000/xmlns/"

/-- The namespace of the attribute that says that an element is null. -/
def instanceNamespace : Bytes := word "http://www.w3.org/2001/XMLSchema-instance"

/-- Namespaces of prefixes, the innermost binding first. -/
abbrev Scope := List (Bytes × Bytes)

/-- The bindings of attributes, put before those around them, unless one is not allowed. -/
def Scope.extend (scope : Scope) : List Attribute → Option Scope
  | [] => some scope
  | (name, value) :: rest =>
    match splitName name with
    | (some lead, bound) =>
      if lead = word "xmlns" then
        if bound = word "xml" then
          if value = xmlNamespace then extend scope rest else none
        else if bound = word "xmlns" ∨ value = xmlNamespace ∨ value = bindingNamespace then none
        else extend ((bound, value) :: scope) rest
      else extend scope rest
    | (none, _) => extend scope rest

/-- Whether an attribute says that its element is null. -/
def Scope.isNull (scope : Scope) (a : Attribute) : Bool :=
  match splitName a.1 with
  | (some lead, name) =>
    scope.lookup lead == some instanceNamespace && name == word "nil" &&
      (a.2 == word "true" || a.2 == word "1")
  | (none, _) => false

/-- The key of an attribute: an at sign and its local name, with the prefix where that is
reserved. -/
def attributeKey? (name : Bytes) : Option String :=
  let full := match splitName name with
    | (some lead, rest) => if lead = word "xmlns" ∨ lead = word "xml" then name else rest
    | (none, _) => name
  (characters? full).map fun cs => String.ofList ('@' :: cs)

/-- The key of an element: its local name. -/
def elementKey? (name : Bytes) : Option String :=
  (characters? (splitName name).2).map String.ofList

end RestDispatch.Xml
