import RestDispatch.Http.Config
import RestDispatch.Http.Exchange
import RestDispatch.Interceptor

/-!
# The HTTP transport

Carries requests out. The interceptors see a request first; then its URL is joined to the base URL,
which must not be left, and its headers are checked. Only after that is the request sent, by
whatever sends it; over a network all that is sent is kept.
-/

namespace RestDispatch

/-- The options of a call. -/
structure HttpOptions where
  headers : List (String × String)
  timeout : Option Duration

/-- The options of a call that sets none. -/
def HttpOptions.none : HttpOptions := ⟨[], Option.none⟩

/-- Adds a header to the options of a call. -/
def HttpOptions.withHeader (o : HttpOptions) (name value : String) : HttpOptions :=
  { o with headers := o.headers ++ [(name, value)] }

/-- Replaces the timeout of a call. -/
def HttpOptions.withTimeout (o : HttpOptions) (d : Duration) : HttpOptions :=
  { o with timeout := some d }

/-- An HTTP transport. -/
structure HttpTransport where
  baseUrl : Url
  timeout : Duration
  defaultHeaders : List Header
  interceptors : Interceptors

namespace HttpTransport

/-! ### Building a transport -/

/-- The transport for a base URL. -/
def ofUrl (u : Url) : HttpTransport := ⟨u, HttpConfig.defaultTimeout, [], .empty⟩

/-- Replaces the timeout. -/
def withTimeout (t : HttpTransport) (d : Duration) : HttpTransport := { t with timeout := d }

/-- Adds a default header, which replaces those of its name. -/
def withHeader (t : HttpTransport) (p : String × String) : Except HeaderFault HttpTransport := do
  let h ← Header.ofPair p
  return { t with defaultHeaders := h.insert t.defaultHeaders }

/-- Adds default headers in their order. -/
def withHeaders (t : HttpTransport) (ps : List (String × String)) :
    Except HeaderFault HttpTransport :=
  ps.foldlM withHeader t

/-- Adds an interceptor. -/
def withInterceptor (t : HttpTransport) (i : Interceptor) : HttpTransport :=
  { t with interceptors := t.interceptors.push i }

/-- The transport of a configuration. -/
def ofConfig (c : HttpConfig) : Except ApiError HttpTransport :=
  (((ofUrl c.baseUrl).withTimeout c.timeout).withHeaders c.headers).mapError HeaderFault.error

/-! ### Carrying requests out -/

variable [DomainNames]

/-- Joins the URL of a request to a base URL. A URL that begins with a slash or could stand by
itself is refused. -/
def joinRelative (base : Url) (r : Request) : Except ConfigError Url :=
  if r.url.toList.head? = some '/' ∨ (Url.parse r.url).isOk then .error (.notRelative r.route r.url)
  else (base.join r.url).mapError .invalidUrl

/-- What the span of a call tells beside the request. -/
structure Trace where
  url : Option Url
  status : Option Nat
  outcome : Option String

/-- The span of a call. -/
def span (r : Request) (t : Trace) : LogRecord :=
  .span "route_request"
    ([("route", .text r.route), ("http.method", .text r.method.verb),
        ("otel.kind", .text "client")] ++
      (t.url.map fun u => ("http.url", LogValue.text u.text)).toList ++
      (t.status.map fun s => ("http.status_code", LogValue.number s)).toList ++
      (t.outcome.map fun s => ("otel.status_code", LogValue.text s)).toList)

/-- The outcome that the span tells of a response with a status. -/
def outcomeOf (status : Nat) : String :=
  if Status.isSuccess status then "OK" else if Status.isServerError status then "ERROR" else "UNSET"

/-- What became of a request: the exchanges that were attempted, the result, and the log. -/
structure Run where
  exchanges : List WireRequest
  result : Except ApiError HttpResponse
  log : Log

/-- The exchange that was attempted. -/
def Run.attempted (done : Run) : Option WireRequest := done.exchanges.head?

section

variable {m : Type → Type} [Monad m]

/-- Carries a request out whose URL is joined, if its headers are headers and it can be sent: the
result, and what the span tells. -/
def exchange (send : WireRequest → Duration → m Exchange) (t : HttpTransport) (r : Request)
    (u : Url) (options : HttpOptions) : m (Except ApiError HttpResponse × Trace) :=
  match Header.ofPairs options.headers with
  | .error f => return (.error f.error, ⟨some u, none, none⟩)
  | .ok headers => do
    let w := WireRequest.compose r u headers t.defaultHeaders
    if w.isSendable then
      let timeout := options.timeout.getD t.timeout
      let (result, status) := (← send w timeout).conclude w timeout
      return (result.mapError .client, ⟨some u, status, status.map outcomeOf⟩)
    else return (.error (.client (.request (.unsendable w.url.text))), ⟨some u, none, none⟩)

/-- Carries a request out: the result, and the log. -/
def carryOut (send : WireRequest → Duration → m Exchange) (t : HttpTransport) (r : Request)
    (options : HttpOptions) : m (Except ApiError HttpResponse × Log) :=
  match t.interceptors.apply r with
  | (_, .error e, log) => return (.error e, span r ⟨none, none, none⟩ :: log)
  | (q, .ok (), log) =>
    match joinRelative t.baseUrl q with
    | .error e => return (.error (.config e), span r ⟨none, none, none⟩ :: log)
    | .ok u => do
      let (result, trace) ← exchange send t q u options
      return (result, span r trace :: log)

end

/-- Carries a request out over a network. -/
def run (net : Network) (t : HttpTransport) (r : Request) (options : HttpOptions) : Run :=
  let ((result, log), exchanges) := (carryOut net.send t r options).run []
  ⟨exchanges, result, log⟩

/-- An HTTP transport over a network. -/
def toTransport (net : Network) (t : HttpTransport) : Transport HttpOptions HttpResponse where
  initial := .none
  execute r options :=
    let done := t.run net r options
    (done.result, done.log)

end HttpTransport
end RestDispatch
