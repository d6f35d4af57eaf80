import RestDispatch.Method
import RestDispatch.Query
import RestDispatch.Response
import RestDispatch.UrlRule

/-!
# Routes

The declaration of a route: its name, method and URL, what its slots take, what its response is, and
the query parameters that go with every call.
-/

namespace RestDispatch

/-- A route. -/
structure Route (τ : Type) [ParamTypes τ] where
  name : String
  method : Method
  path : PathParams τ
  rule : UrlRule path
  query : PresenceKind
  data : PresenceKind
  response : ResponseFormat
  defaultQuery : Query

end RestDispatch
