/-!
# Log records

What the library reports while it works: events, and the span of a call, which gathers fields until
the call is over.
-/

namespace RestDispatch

/-- The weight of an event. -/
inductive LogLevel
  | debug
  | info
  | warn
  deriving DecidableEq

namespace LogLevel

/-- The name of a level. -/
def name : LogLevel → String
  | .debug => "DEBUG"
  | .info => "INFO"
  | .warn => "WARN"

end LogLevel

/-- The value of a field. -/
inductive LogValue
  | text (s : String)
  | number (n : Nat)
  | truth (b : Bool)
  deriving DecidableEq

/-- Fields of a record. -/
abbrev LogFields := List (String × LogValue)

/-- A record. -/
inductive LogRecord
  | event (level : LogLevel) (message : String) (fields : LogFields)
  | span (name : String) (fields : LogFields)
  deriving DecidableEq

/-- Records in the order in which they were made; a span stands where it began. -/
abbrev Log := List LogRecord

end RestDispatch
