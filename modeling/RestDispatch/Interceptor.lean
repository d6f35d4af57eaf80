import RestDispatch.Transport

/-!
# Interceptors

Functions that see every request before it is sent. Each may change the request or reject it; they
run in the order of their registration, and the first rejection ends the run. The request is what
the interceptors that ran have left of it, also where the last one rejected it.
-/

namespace RestDispatch

/-- A function that changes a request and accepts it or not. -/
abbrev Interceptor := Request → Request × Except ApiError Unit

/-- Interceptors in the order of their registration. -/
structure Interceptors where
  chain : List Interceptor

namespace Interceptors

/-- No interceptors. -/
def empty : Interceptors := ⟨[]⟩

/-- Registers an interceptor after the others. -/
def push (is : Interceptors) (i : Interceptor) : Interceptors := ⟨is.chain ++ [i]⟩

/-- The number of interceptors. -/
def size (is : Interceptors) : Nat := is.chain.length

/-- Whether there is no interceptor. -/
def isEmpty (is : Interceptors) : Bool := is.chain.isEmpty

@[simp] theorem chain_empty : empty.chain = [] := rfl

@[simp] theorem chain_push (is : Interceptors) (i : Interceptor) :
    (is.push i).chain = is.chain ++ [i] := rfl

@[simp] theorem size_push (is : Interceptors) (i : Interceptor) :
    (is.push i).size = is.size + 1 := by simp [size]

/-- The record of a rejection by the interceptor at a position. -/
def rejected (r : Request) (index : Nat) (e : ApiError) : LogRecord :=
  .event .debug "interceptor rejected request"
    [("route", .text r.route), ("index", .number index), ("error", .text e.message)]

/-- Runs interceptors, of which the first has the position `index`. -/
def run (index : Nat) : List Interceptor → Request → Request × Except ApiError Unit × Log
  | [], r => (r, .ok (), [])
  | i :: is, r =>
    match i r with
    | (r, .ok ()) => run (index + 1) is r
    | (r, .error e) => (r, .error e, [rejected r index e])

/-- Runs all interceptors. -/
def apply (is : Interceptors) (r : Request) : Request × Except ApiError Unit × Log :=
  run 0 is.chain r

/-- The description of a chain. -/
def describe (is : Interceptors) : String :=
  "Interceptors \x7b len: " ++ toString is.size ++ " \x7d"

end Interceptors
end RestDispatch
