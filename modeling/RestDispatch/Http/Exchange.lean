import RestDispatch.Duration
import RestDispatch.Http.Status
import RestDispatch.Http.Wire

/-!
# Exchanges

What may come of a request on the wire, and what a call makes of it. A network is an arbitrary
function, so that nothing is assumed about servers, and it keeps the requests that are sent over it;
`Exchange.conclude` gives the result of a call and the status that it was answered with, if it was
answered.
-/

namespace RestDispatch

/-- What comes of the body of a response. -/
inductive BodyOutcome
  | complete (body : Bytes)
  | cutOff
  | stalled

/-- What comes of an exchange. -/
inductive Exchange
  | unreachable
  | brokenOff
  | timedOut
  | answered (status : Nat) (headers : List Header) (body : BodyOutcome)

/-- A network: what comes of a request within a time. An answer that leads to another address is
followed within the exchange. -/
abbrev Network := WireRequest → Duration → Exchange

/-- Sends a request over a network, which keeps it behind those that were sent before. -/
def Network.send (net : Network) (w : WireRequest) (timeout : Duration) :
    StateM (List WireRequest) Exchange :=
  modifyGet fun sent => (net w timeout, sent ++ [w])

/-- A response with a status of success. -/
structure HttpResponse where
  status : Nat
  headers : List Header
  body : Bytes

instance : HasBody HttpResponse := ⟨HttpResponse.body⟩

namespace Exchange

/-- The result of a response. A body that cannot be read matters less than a status that is no
success: then the text of the status stands in for the body. -/
def resultOf (status : Nat) (headers : List Header) (body : BodyOutcome) :
    Except ClientError HttpResponse :=
  if Status.isSuccess status then
    match body with
    | .complete bs => .ok ⟨status, headers, bs⟩
    | .cutOff => .error (.request (.bodyFailed false))
    | .stalled => .error (.request (.bodyFailed true))
  else
    match body with
    | .complete bs => .error (.httpStatus status (Utf8.decodeLossy bs))
    | _ => .error (.httpStatus status (Status.text status))

/-- The result of an exchange for a request, and the status that was received. -/
def conclude (w : WireRequest) (timeout : Duration) :
    Exchange → Except ClientError HttpResponse × Option Nat
  | .unreachable => (.error (.request (.unreachable w.url.text)), none)
  | .brokenOff => (.error (.request (.brokenOff w.url.text)), none)
  | .timedOut => (.error (.timeout timeout.wholeMillis.toUInt64), none)
  | .answered status headers body => (resultOf status headers body, some status)

end Exchange
end RestDispatch
