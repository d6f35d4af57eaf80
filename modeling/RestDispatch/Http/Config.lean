import RestDispatch.Duration
import RestDispatch.Log
import RestDispatch.Text.Blank
import RestDispatch.Url.Parser
import RestDispatch.Error

/-!
# Configuration

Where an HTTP transport sends its requests, how long it waits and which headers it always sends. The
base URL and the timeout can be read from variables; a variable whose value is no text counts as one
that is not set.
-/

namespace RestDispatch

/-- The configuration of an HTTP transport. -/
structure HttpConfig where
  baseUrl : Url
  timeout : Duration
  headers : List (String × String)

namespace HttpConfig

/-- How long a transport waits if nothing else is said. -/
def defaultTimeout : Duration := .ofSeconds 30

/-- The variable that holds the base URL. -/
def baseUrlVariable : String := "ROUTEKIT_BASE_URL"

/-- The variable that holds the timeout in seconds. -/
def timeoutVariable : String := "ROUTEKIT_TIMEOUT_SECS"

/-- The configuration for a base URL. -/
def ofUrl (u : Url) : HttpConfig := ⟨u, defaultTimeout, []⟩

/-- Replaces the timeout. -/
def withTimeout (c : HttpConfig) (d : Duration) : HttpConfig := { c with timeout := d }

/-- Adds a header. -/
def withHeader (c : HttpConfig) (name value : String) : HttpConfig :=
  { c with headers := c.headers ++ [(name, value)] }

/-- Reads a timeout: a number of seconds, between blanks. -/
def readTimeout (raw : String) : Except ConfigError Duration :=
  match Decimal.readBounded 0x10000000000000000 (Text.trimBlank raw.toList) with
  | .ok n => .ok (.ofSeconds n.toUInt64)
  | .error f => .error (.invalidEnv timeoutVariable (Text.quoted raw ++ ": " ++ f.message))

variable [DomainNames]

/-- Reads a base URL. -/
def readBaseUrl (raw : String) : Except ConfigError Url :=
  (Url.parse raw).mapError fun f => .invalidEnv baseUrlVariable f.message

/-- The configuration that variables give. -/
def read (lookup : String → Option String) : Except ConfigError HttpConfig := do
  match lookup baseUrlVariable with
  | none => throw (.missingEnv baseUrlVariable)
  | some raw =>
    let baseUrl ← readBaseUrl raw
    match lookup timeoutVariable with
    | none => return ⟨baseUrl, defaultTimeout, []⟩
    | some raw =>
      let timeout ← readTimeout raw
      return ⟨baseUrl, timeout, []⟩

/-- The record of a configuration that was read. -/
def configured (c : HttpConfig) : LogRecord :=
  .event .info "HTTP transport configured from environment"
    [("base_url", .text c.baseUrl.text), ("timeout_secs", .number c.timeout.seconds.toNat)]

/-- The configuration that variables give, and the log. -/
def ofLookup (lookup : String → Option String) : Except ConfigError HttpConfig × Log :=
  match read lookup with
  | .ok c => (.ok c, [configured c])
  | .error e => (.error e, [])

/-- The configuration that an environment gives, whose values are octets. -/
def ofEnvironment (environment : String → Option Bytes) : Except ConfigError HttpConfig × Log :=
  ofLookup fun name => (environment name).bind fun bs => (Utf8.decode bs).toOption

end HttpConfig
end RestDispatch
