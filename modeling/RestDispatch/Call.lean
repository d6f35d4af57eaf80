import RestDispatch.Schema
import RestDispatch.Transport

/-!
# Calls

A call to a route: what its slots hold, and the options for the transport. `Call.prepare` resolves
it against a schema. The route that the schema has under the name decides the method, the URL and
the default query; of several things that are wrong the first counts, in the order name, path
parameters, query parameters, body.
-/

namespace RestDispatch

variable {τ : Type} [ParamTypes τ]

/-- A call to a route with options of the type `ω`. -/
structure Call (r : Route τ) (ω : Type) where
  path : Slot r.path.kind r.path.Value
  query : Slot r.query Serial
  data : Slot r.data Serial
  options : ω

namespace Call

variable {r : Route τ} {ω : Type}

/-- A call whose slots are untouched. -/
def start (r : Route τ) (options : ω) : Call r ω :=
  ⟨.untouched, .untouched, .untouched, options⟩

/-- Sets the path parameters. -/
def withPath (c : Call r ω) (input : r.path.kind.Input r.path.Value) : Call r ω :=
  { c with path := .written input }

/-- Sets the query parameters. -/
def withQuery (c : Call r ω) (input : r.query.Input Serial) : Call r ω :=
  { c with query := .written input }

/-- Sets the body. -/
def withData (c : Call r ω) (input : r.data.Input Serial) : Call r ω :=
  { c with data := .written input }

/-- Replaces the options. -/
def withOptions (c : Call r ω) (options : ω) : Call r ω := { c with options }

/-- Changes the options. -/
def configure (c : Call r ω) (f : ω → ω) : Call r ω := { c with options := f c.options }

/-- Whether every slot may be left as it is, so that the call can be sent. -/
def isReady (c : Call r ω) : Bool := c.path.isReady && c.query.isReady && c.data.isReady

/-- The query parameters that the caller gives. -/
def callerQuery (c : Call r ω) : Except ConfigError Query :=
  match c.query.value? with
  | none => .ok .empty
  | some v => (Query.flatten v).mapError (ConfigError.ofQuery r.name)

/-- The body of the request. -/
def body (c : Call r ω) : Except ConfigError (Option Json) :=
  match c.data.value? with
  | none => .ok none
  | some v => (v.toJson.map some).mapError (ConfigError.payload r.name)

/-- The request of a call by the entry that the schema has for it. -/
def request (c : Call r ω) (entry : RouteEntry τ) : Except ConfigError Request := do
  let url ← entry.resolve (c.path.value?.map r.path.erase)
  let query ← c.callerQuery
  let body ← c.body
  return {
    route := r.name
    method := entry.method
    url := url
    query := .merge entry.defaultQuery query
    body := body }

/-- The record of a call to a route that the schema does not have. -/
def unregistered (route : String) : LogRecord :=
  .event .warn "route is not registered with this dispatcher" [("route", .text route)]

/-- The records of a request that has been resolved. -/
def resolved (q : Request) : Log :=
  let unusual := LogRecord.event .warn
    "sending a request body on a method that usually carries none"
    [("route", .text q.route), ("method", .text q.method.verb)]
  let done := LogRecord.event .debug "resolved route"
    [("route", .text q.route), ("method", .text q.method.verb), ("url", .text q.url),
      ("query_params", .number q.query.size), ("has_body", .truth q.body.isSome)]
  if q.body.isSome && !q.method.hasBody then [unusual, done] else [done]

/-- Resolves a call: the request and the options for the transport. -/
def prepare (c : Call r ω) (s : Schema τ) : Except ConfigError (Request × ω) × Log :=
  match s.get? r.name with
  | none => (.error (.unknownRoute r.name), [unregistered r.name])
  | some entry =>
    match c.request entry with
    | .ok q => (.ok (q, c.options), resolved q)
    | .error e => (.error e, [])

end Call
end RestDispatch
