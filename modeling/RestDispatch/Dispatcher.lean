import RestDispatch.Call

/-!
# Dispatchers

A schema and a transport. A call is resolved against the schema and then given to the transport,
once if it could be resolved and never if not; what the transport answers is handed on unchanged, or
read in the response format of the route.
-/

namespace RestDispatch

variable {τ : Type} [ParamTypes τ] {ω ρ : Type}

/-- A schema and what carries its calls out. -/
structure Dispatcher (τ : Type) [ParamTypes τ] (ω ρ : Type) where
  schema : Schema τ
  transport : Transport ω ρ

/-- What became of a call: what the transport was given, the result, and the log. -/
structure Delivery (ω ρ : Type) where
  delegated : Option (Request × ω)
  result : Except ApiError ρ
  log : Log

/-- Whatever is made of the result of a call. -/
def Delivery.bind {σ : Type} (d : Delivery ω ρ) (f : ρ → Except ApiError σ) : Delivery ω σ :=
  { d with result := d.result.bind f }

/-- A type that stands for a route, whatever its values are. -/
class RouteType (α τ : Type) [ParamTypes τ] where
  route : Route τ

/-- The route that a type stands for. -/
def routeOf (α : Type) [RouteType α τ] : Route τ := RouteType.route α

namespace Dispatcher

/-- Starts a call. -/
def call (d : Dispatcher τ ω ρ) (r : Route τ) : Call r ω := .start r d.transport.initial

/-- Starts a call to the route that the type of a value stands for. -/
def callWith {α : Type} [RouteType α τ] (d : Dispatcher τ ω ρ) (_ : α) :
    Call (routeOf α : Route τ) ω :=
  .start (routeOf α) d.transport.initial

/-- Resolves a call without sending it. -/
def request {r : Route τ} (d : Dispatcher τ ω ρ) (c : Call r ω) :
    Except ConfigError Request × Log :=
  let (result, log) := c.prepare d.schema
  (result.map (·.1), log)

/-- Sends a call, and gives what the transport answers. -/
def sendRaw {r : Route τ} (d : Dispatcher τ ω ρ) (c : Call r ω) : Delivery ω ρ :=
  match c.prepare d.schema with
  | (.error e, log) => ⟨none, .error (.config e), log⟩
  | (.ok (q, options), log) =>
    let (result, more) := d.transport.execute q options
    ⟨some (q, options), result, log ++ more⟩

/-- Sends a call, and reads the body of the answer in the format of the route. -/
def send [HasBody ρ] {r : Route τ} (d : Dispatcher τ ω ρ) (c : Call r ω) :
    Delivery ω ResponseValue :=
  (d.sendRaw c).bind fun output =>
    (r.response.parse (HasBody.body output)).mapError ApiError.validation

/-- The description of a dispatcher, from that of its transport. -/
def describe (d : Dispatcher τ ω ρ) (transport : String) : String :=
  "Dispatcher \x7b routes: [" ++ String.intercalate ", " (d.schema.names.map Text.quoted) ++
    "], transport: " ++ transport ++ " \x7d"

end Dispatcher
end RestDispatch
