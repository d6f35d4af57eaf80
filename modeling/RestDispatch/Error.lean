import RestDispatch.Json.Fault
import RestDispatch.Query
import RestDispatch.RouteName
import RestDispatch.Url.Fault

/-!
# Errors

What can go wrong with a call, by the stage at which it does: the route and its configuration before
anything is sent, the exchange with the server, and the response. Each error keeps its cause; the
wording is in the `message` functions.
-/

namespace RestDispatch

/-- How an exchange broke down before a response was complete. -/
inductive ExchangeFault
  /-- The request could not be formed for its URL. -/
  | unsendable (url : String)
  /-- Nothing listens at the URL. -/
  | unreachable (url : String)
  /-- The connection ended without a response. -/
  | brokenOff (url : String)
  /-- The body ended early, or did not end in time. -/
  | bodyFailed (timedOut : Bool)
  deriving DecidableEq

namespace ExchangeFault

/-- The wording of a fault. -/
def message : ExchangeFault → String
  | .unsendable url => "builder error for url (" ++ url ++ ")"
  | .unreachable url => "error sending request for url (" ++ url ++ ")"
  | .brokenOff url => "error sending request for url (" ++ url ++ ")"
  | .bodyFailed _ => "error decoding response body"

/-- Whether sending again might succeed. -/
def isRetryable : ExchangeFault → Bool
  | .unreachable _ => true
  | .bodyFailed timedOut => timedOut
  | _ => false

end ExchangeFault

/-- An error of the exchange with the server. -/
inductive ClientError
  | request (fault : ExchangeFault)
  | httpStatus (status : Nat) (message : String)
  | timeout (millis : UInt64)
  | connection (message : String)
  | interceptor (message : String)
  deriving DecidableEq

namespace ClientError

/-- The wording of an error. -/
def message : ClientError → String
  | .request f => "Transport request failed: " ++ f.message
  | .httpStatus status m => "Server answered " ++ toString status ++ ": " ++ m
  | .timeout millis => "No response within " ++ toString millis.toNat ++ "ms"
  | .connection m => "Cannot send request: " ++ m
  | .interceptor m => "Request rejected by interceptor: " ++ m

/-- Whether sending the same call again might succeed. -/
def isRetryable : ClientError → Bool
  | .request f => f.isRetryable
  | .httpStatus status _ => 500 ≤ status || status == 429
  | .timeout _ => true
  | _ => false

/-- The status of the server's answer, if it answered. -/
def statusCode? : ClientError → Option Nat
  | .httpStatus status _ => some status
  | _ => none

end ClientError

/-- An error of a response body. -/
inductive ValidationError
  | jsonParse (reason : Json.Reason) (place : Json.Place)
  | yamlParse
  | xmlParse
  | contentTypeMismatch (expected actual : String)
  | emptyBody

namespace ValidationError

/-- The error of a body that is not the JSON text of the declared shape. -/
def ofJson (body : Bytes) (f : Json.Fault) : ValidationError := .jsonParse f.reason (f.place body)

/-- The wording of an error. What is wrong with a YAML or XML text is not told. -/
def message : ValidationError → String
  | .jsonParse reason place =>
    "Response body does not match the declared JSON type: " ++ reason.message ++ " at line " ++
      toString place.line ++ " column " ++ toString place.column
  | .yamlParse => "Response body does not match the declared YAML type"
  | .xmlParse => "Response body does not match the declared XML type"
  | .contentTypeMismatch expected actual => "Response body is not " ++ expected ++ ": " ++ actual
  | .emptyBody => "Response body is empty but the route declares a typed response"

/-- Whether the body is not in the declared format at all. -/
def isFormatMismatch : ValidationError → Bool
  | .contentTypeMismatch _ _ => true
  | _ => false

/-- Whether the body is no text of the declared shape. -/
def isParseError : ValidationError → Bool
  | .jsonParse _ _ | .yamlParse | .xmlParse => true
  | _ => false

end ValidationError

/-- An error of a schema, a route or the configuration. -/
inductive ConfigError
  | unknownRoute (name : String)
  | duplicateRoute (name : String)
  | invalidRouteName (fault : RouteNameFault)
  | invalidUrl (fault : UrlFault)
  | notRelative (route url : String)
  | missingPathParams (route : String)
  | pathParamsMismatch (route : String)
  | invalidQuery (route message : String)
  | payload (route : String) (fault : SerialFault)
  | missingEnv (name : String)
  | invalidEnv (name message : String)
  deriving DecidableEq

/-- The wording of an error. -/
def ConfigError.message : ConfigError → String
  | .unknownRoute name => "Unknown route: " ++ name
  | .duplicateRoute name => "Duplicate route: " ++ name
  | .invalidRouteName f => "Invalid route name: " ++ f.message
  | .invalidUrl f => "Invalid URL: " ++ f.message
  | .notRelative route url =>
    "Route " ++ route ++ " resolved to " ++ url ++ ", which is not relative to the base URL"
  | .missingPathParams route => "Route " ++ route ++ " requires path parameters"
  | .pathParamsMismatch route =>
    "Path parameters for route " ++ route ++ " do not match the schema entry"
  | .invalidQuery route m => "Invalid query parameters for route " ++ route ++ ": " ++ m
  | .payload route f => "Failed to serialize payload for route " ++ route ++ ": " ++ f.message
  | .missingEnv name => "Missing environment variable: " ++ name
  | .invalidEnv name m => "Invalid value for " ++ name ++ ": " ++ m

/-- The error of query parameters that cannot be flattened for a route. -/
def ConfigError.ofQuery (route : String) : Query.Fault → ConfigError
  | .unserializable f => .payload route f
  | .notAnObject kind => .invalidQuery route ("expected an object, got " ++ kind)
  | .nested key kind => .invalidQuery route ("`" ++ key ++ "` holds a nested " ++ kind)

/-- Any error of a call. -/
inductive ApiError
  | client (e : ClientError)
  | validation (e : ValidationError)
  | config (e : ConfigError)

namespace ApiError

/-- The wording of an error. -/
def message : ApiError → String
  | .client e => e.message
  | .validation e => e.message
  | .config e => e.message

/-- Whether the error is one of configuration. -/
def isConfig : ApiError → Bool
  | .config _ => true
  | _ => false

end ApiError

section Rename

variable {ε δ α : Type _} {f : ε → δ} {x : Except ε α}

/-- Errors that are renamed leave a result as it is. -/
theorem mapError_eq_ok_iff {a : α} : x.mapError f = .ok a ↔ x = .ok a := by
  cases x with
  | error e => constructor <;> intro h <;> cases h
  | ok b => constructor <;> intro h <;> cases h <;> rfl

/-- An error that has been renamed was an error before. -/
theorem mapError_eq_error_iff {d : δ} : x.mapError f = .error d ↔ ∃ e, x = .error e ∧ f e = d := by
  constructor
  · intro h
    cases x with
    | error e =>
      cases h
      exact ⟨e, rfl, rfl⟩
    | ok b => cases h
  · rintro ⟨e, rfl, rfl⟩
    rfl

end Rename
end RestDispatch
