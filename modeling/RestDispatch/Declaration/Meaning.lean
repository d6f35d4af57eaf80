import RestDispatch.Declaration.Implementation
import RestDispatch.Route

/-!
# Meaning of route implementations

The route that an implementation is once the application has been compiled. What the types and the
expressions of a declaration are is for the application to say, in a `Meaning`; the rest is fixed by
the implementation. That a rule has the marker of the path parameters beside it is a matter of types
here, as it is for the compiler.
-/

namespace RestDispatch.Declaration

variable {τ : Type} [ParamTypes τ]

/-- What the types and expressions of an application are: types as those of path parameters and of
responses, and expressions as functions that give a URL. An expression is asked for only where it
has the type of such a function. -/
structure Meaning (τ : Type) [ParamTypes τ] where
  params : Ty → τ
  shape : Ty → Shape
  computed : Expr → Unit → String
  builder : Expr → (t : Ty) → ParamTypes.Value (params t) → String
  optionalBuilder : Expr → (t : Ty) → Option (ParamTypes.Value (params t)) → String

/-- The presence that a marker asks for. -/
def Marker.kind : Marker → PresenceKind
  | .required _ => .required
  | .optional _ => .optional
  | .forbidden => .forbidden

namespace Meaning

variable (m : Meaning τ)

/-- The path parameters of a marker. -/
def pathParams : Marker → PathParams τ
  | .required t => .required (m.params t)
  | .optional t => .optional (m.params t)
  | .forbidden => .forbidden

/-- The rule of a URL, for path parameters with its own marker. -/
def rule : (form : UrlForm) → UrlRule (m.pathParams (.ofUrl form))
  | .literal l => .literal l.value
  | .computed e => .computed (m.computed e)
  | .builder e t => .builder (m.builder e t)
  | .optionalBuilder e t => .optionalBuilder (m.optionalBuilder e t)

/-- The format of a response. -/
def format : ResponseDeclaration → ResponseFormat
  | .typed .json t => .json (m.shape t)
  | .typed .yaml t => .yaml (m.shape t)
  | .typed .xml t => .xml (m.shape t)
  | .untyped .text => .text
  | .untyped .html => .html
  | .untyped .csv => .csv
  | .untyped .binary => .binary
  | .untyped .empty => .empty

end Meaning

namespace Implementation

/-- The default query parameters, inserted one after the other. -/
def defaultQuery (i : Implementation) : Query := .ofList i.defaults

/-- The route of an implementation. -/
def route (i : Implementation) (m : Meaning τ) : Route τ where
  name := i.name.value
  method := i.method
  path := m.pathParams i.pathParams
  rule := m.rule i.url
  query := i.queryParams.kind
  data := i.data.kind
  response := m.format i.response
  defaultQuery := i.defaultQuery

end Implementation
end RestDispatch.Declaration
