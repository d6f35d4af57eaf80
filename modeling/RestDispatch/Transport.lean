import RestDispatch.Error
import RestDispatch.Log
import RestDispatch.Method

/-!
# Requests and transports

A request that has been resolved, and what carries it out. A transport gets the request and the
options of the call and answers with its output or an error; it is an arbitrary function.
-/

namespace RestDispatch

/-- A resolved request. Its URL is relative to the base of the transport. -/
structure Request where
  route : String
  method : Method
  url : String
  query : Query
  body : Option Json

/-- What carries requests out: `ω` are the options of a call and `ρ` is what a call gives. -/
structure Transport (ω ρ : Type) where
  /-- The options of a call that sets none. -/
  initial : ω
  execute : Request → ω → Except ApiError ρ × Log

/-- Outputs of a transport that have a body. -/
class HasBody (ρ : Type) where
  body : ρ → Bytes

instance : HasBody Bytes := ⟨id⟩

end RestDispatch
