import RestDispatch.Declaration.Config

/-!
# Implementations of routes

What a declaration makes of a type: the route with its name, its method, the marker of each slot,
the rule for its URL, its response and its default query parameters. `derive` decides whether a
declaration is one of a route, and which.
-/

namespace RestDispatch.Declaration

/-- Whether a slot has to be filled, and with what. -/
inductive Marker
  | required (t : Ty)
  | optional (t : Ty)
  | forbidden

/-- How a route makes its URL. -/
inductive UrlForm
  | literal (l : StringLiteral)
  | computed (e : Expr)
  | builder (e : Expr) (t : Ty)
  | optionalBuilder (e : Expr) (t : Ty)

namespace Marker

/-- The marker of a declared type: none and the unit type forbid the slot. -/
def ofDeclared : Option Ty → Marker
  | none => .forbidden
  | some .unit => .forbidden
  | some t =>
    match t.optionArgument? with
    | some inner => .optional inner
    | none => .required t

/-- The marker of the path parameters that a URL takes. -/
def ofUrl : UrlForm → Marker
  | .literal _ => .forbidden
  | .computed _ => .forbidden
  | .builder _ t => .required t
  | .optionalBuilder _ t => .optional t

end Marker

namespace UrlForm

/-- The form of a closure with the given parameters. -/
def ofClosure (e : Expr) : List (Option Ty) → Except DeclarationFault UrlForm
  | [] => .ok (.computed e)
  | _ :: _ :: _ => .error .closureArity
  | [none] => .error .closureUnannotated
  | [some (.reference _ t)] => .ok (.builder e t)
  | [some t] =>
    match t.optionArgument? with
    | some (.reference _ u) => .ok (.optionalBuilder e u)
    | _ => .error .closureParameter

/-- The form of a path to a function, whose parameters may be declared. -/
def ofFunction (e : Expr) : Option Ty → UrlForm
  | none => .computed e
  | some t =>
    match t.optionArgument? with
    | some inner => .optionalBuilder e inner
    | none => .builder e t

/-- The form of an expression, with the path parameters that are declared beside it. -/
def classify (e : Expr) (params : Option Ty) : Except DeclarationFault UrlForm :=
  match e.form with
  | .text l => if params.isSome then .error .literalUrlWithParams else .ok (.literal l)
  | .literal => .error .urlLiteralNotText
  | .closure ps => if params.isSome then .error .closureUrlWithParams else ofClosure e ps
  | .path => .ok (ofFunction e params)
  | .other => .error .urlForm

end UrlForm

/-- A route made from a declaration. -/
structure Implementation where
  typeName : String
  name : StringLiteral
  method : Method
  url : UrlForm
  queryParams : Marker
  data : Marker
  response : ResponseDeclaration
  defaults : List (String × String)

namespace Implementation

/-- The marker of the path parameters. -/
def pathParams (i : Implementation) : Marker := .ofUrl i.url

end Implementation

/-- The route that the keys of a type make. -/
def Config.implementation (c : Config) (typeName : String) :
    Except DeclarationFault Implementation := do
  match c.name, c.method, c.url, c.response with
  | some name, some method, some url, some response =>
    let form ← UrlForm.classify url c.pathParams
    return ⟨typeName, name, method, form, .ofDeclared c.queryParams, .ofDeclared c.data, response,
      c.defaults⟩
  | _, _, _, _ => throw (.missingKeys c.missing)

/-- The fault of an item that can be no route. -/
def Item.fault? (i : Item) : Option DeclarationFault :=
  match i.kind with
  | .fieldedStruct => some .fieldedStruct
  | .enumeration => some .enumeration
  | .union => some .union
  | .unitStruct => if i.generic then some .generic else none

/-- The route that an item declares. -/
def Item.derive [Grammar] (i : Item) : Except DeclarationFault Implementation := do
  if let some f := i.fault? then throw f
  let config ← Config.ofEntries i.entries
  config.implementation i.name

/-- The route that a list of tokens declares. -/
def derive [Grammar] (ts : List Token) : Except DeclarationFault Implementation := do
  (← Grammar.item ts).derive

end RestDispatch.Declaration
