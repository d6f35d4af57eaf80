import RestDispatch.Declaration.Entry
import RestDispatch.Method

/-!
# Configured routes

The keys of a route, gathered from the entries of its attributes. Every key but the default query
parameters is set at most once, and a default query parameter has a name that no other one has.
-/

namespace RestDispatch.Declaration

/-- A response format that reads a declared type. -/
inductive TypedFormat
  | json
  | yaml
  | xml
  deriving DecidableEq

/-- A response format of its own type. -/
inductive UntypedFormat
  | text
  | html
  | csv
  | binary
  | empty
  deriving DecidableEq

/-- A declared response. -/
inductive ResponseDeclaration
  | typed (format : TypedFormat) (t : Ty)
  | untyped (format : UntypedFormat)

/-- The format of a spelling. -/
def formatOf? (spelling : String) : Option (TypedFormat ⊕ UntypedFormat) :=
  if ["json", "Json", "JSON"].contains spelling then some (.inl .json)
  else if ["yaml", "Yaml", "YAML"].contains spelling then some (.inl .yaml)
  else if ["xml", "Xml", "XML"].contains spelling then some (.inl .xml)
  else if ["text", "plain_text", "PlainText"].contains spelling then some (.inr .text)
  else if ["html", "Html", "HTML"].contains spelling then some (.inr .html)
  else if ["csv", "Csv", "CSV"].contains spelling then some (.inr .csv)
  else if ["binary", "Binary", "bytes"].contains spelling then some (.inr .binary)
  else if ["empty", "Empty", "none"].contains spelling then some (.inr .empty)
  else none

/-- The response of a spelling and a type. -/
def ResponseDeclaration.ofEntry (spelling : String) (t : Option Ty) :
    Except DeclarationFault ResponseDeclaration :=
  match formatOf? spelling, t with
  | none, _ => .error (.unknownFormat spelling)
  | some (.inl _), none => .error (.formatNeedsType spelling)
  | some (.inl f), some t => .ok (.typed f t)
  | some (.inr _), some _ => .error (.formatTakesNoType spelling)
  | some (.inr f), none => .ok (.untyped f)

/-- The spellings of a method: as a title, in capitals, and in small letters. -/
def methodSpellings (m : Method) : List String :=
  [m.title, m.verb, String.ofList (m.verb.toList.map Char.toLower)]

/-- The method of a spelling. -/
def methodOf? (spelling : String) : Option Method :=
  Method.all.find? fun m => (methodSpellings m).contains spelling

/-- The text of a default query parameter. -/
def defaultText? (l : Literal) : Option String :=
  match l.kind with
  | .text value => some value
  | .integer ds => some ds
  | .float ds => some ds
  | .boolean b => some (if b then "true" else "false")
  | .other => none

/-- Checks the name of a route where it is declared, before it can be registered. -/
def checkName (name : StringLiteral) : Except DeclarationFault Unit :=
  let cs := name.value.toList
  if cs = [] then .error (.invalidName .empty)
  else if Text.trimBlank cs ≠ cs then .error (.invalidName .surroundingBlank)
  else
    match cs.find? Text.isControl with
    | some c => .error (.invalidName (.control c))
    | none => .ok ()

/-- A declared name has the fault that it has as the name of a route. -/
theorem checkName_eq (name : StringLiteral) : checkName name =
    match RouteName.fault? name.value with
    | some f => .error (.invalidName f)
    | none => .ok () := by
  unfold checkName RouteName.fault?
  dsimp only
  split
  · rfl
  · split
    · rfl
    · cases name.value.toList.find? Text.isControl <;> rfl

theorem checkName_eq_ok_iff {name : StringLiteral} :
    checkName name = .ok () ↔ RouteName.fault? name.value = none := by
  rw [checkName_eq]
  cases RouteName.fault? name.value <;> simp

/-- The keys of a route that have been set. -/
structure Config where
  name : Option StringLiteral
  method : Option Method
  url : Option Expr
  pathParams : Option Ty
  queryParams : Option Ty
  data : Option Ty
  response : Option ResponseDeclaration
  defaults : List (String × String)

namespace Config

/-- No key set. -/
def empty : Config := ⟨none, none, none, none, none, none, none, []⟩

/-- Sets a key that must not have been set. -/
def setOnce {α : Type} (slot : Option α) (value : α) : Except DeclarationFault (Option α) :=
  match slot with
  | none => .ok (some value)
  | some _ => .error .duplicateKey

/-- Adds a default query parameter. -/
def addDefault (c : Config) (key : KeyPath) (value : Except DeclarationFault Literal) :
    Except DeclarationFault Config :=
  match key.single? with
  | none => .error .defaultKeyNotName
  | some k =>
    if c.defaults.any fun e => e.1 == k then .error (.duplicateDefault k)
    else
      match value with
      | .error f => .error f
      | .ok l =>
        match defaultText? l with
        | none => .error .defaultNotScalar
        | some s => .ok { c with defaults := c.defaults ++ [(k, s)] }

/-- Adds an entry. Its value is checked before the key is. -/
def add (c : Config) : Entry → Except DeclarationFault Config
  | .name value =>
    match checkName value with
    | .error f => .error f
    | .ok () => (setOnce c.name value).map fun s => { c with name := s }
  | .method spelling =>
    match methodOf? spelling with
    | none => .error (.unknownMethod spelling)
    | some m => (setOnce c.method m).map fun s => { c with method := s }
  | .url e => (setOnce c.url e).map fun s => { c with url := s }
  | .pathParams t => (setOnce c.pathParams t).map fun s => { c with pathParams := s }
  | .queryParams t => (setOnce c.queryParams t).map fun s => { c with queryParams := s }
  | .data t => (setOnce c.data t).map fun s => { c with data := s }
  | .response spelling t =>
    match ResponseDeclaration.ofEntry spelling t with
    | .error f => .error f
    | .ok r => (setOnce c.response r).map fun s => { c with response := s }
  | .defaultQuery key value => c.addDefault key value
  | .malformed f => .error f

/-- The keys that a list of entries sets. -/
def ofEntries (es : List Entry) : Except DeclarationFault Config := es.foldlM add empty

/-- The names of the keys that every route has and this one does not. -/
def missing (c : Config) : List String :=
  (if c.name.isNone then ["name"] else []) ++ (if c.method.isNone then ["method"] else []) ++
    (if c.url.isNone then ["url"] else []) ++ (if c.response.isNone then ["response"] else [])

end Config
end RestDispatch.Declaration
