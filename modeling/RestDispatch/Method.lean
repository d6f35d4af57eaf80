/-!
# Request methods

The methods that a route can declare and their conventional properties.
-/

namespace RestDispatch

/-- A request method. -/
inductive Method
  | get
  | post
  | put
  | patch
  | delete
  | head
  | options
  | trace
  deriving DecidableEq

namespace Method

/-- Every method. -/
def all : List Method := [.get, .post, .put, .patch, .delete, .head, .options, .trace]

/-- The verb on the wire. -/
def verb : Method → String
  | .get => "GET"
  | .post => "POST"
  | .put => "PUT"
  | .patch => "PATCH"
  | .delete => "DELETE"
  | .head => "HEAD"
  | .options => "OPTIONS"
  | .trace => "TRACE"

/-- The name of a method in the description of a route. -/
def title : Method → String
  | .get => "Get"
  | .post => "Post"
  | .put => "Put"
  | .patch => "Patch"
  | .delete => "Delete"
  | .head => "Head"
  | .options => "Options"
  | .trace => "Trace"

/-- The method of a verb, which is written in capitals. -/
def ofVerb? (s : String) : Option Method := all.find? fun m => m.verb == s

/-- Whether requests of the method conventionally carry a body. -/
def hasBody : Method → Bool
  | .post | .put | .patch => true
  | _ => false

/-- Whether repeating a request leaves the server in the same state. -/
def isIdempotent : Method → Bool
  | .post | .patch => false
  | _ => true

/-- Whether a request only reads. -/
def isSafe : Method → Bool
  | .get | .head | .options | .trace => true
  | _ => false

@[simp] theorem ofVerb?_verb (m : Method) : ofVerb? m.verb = some m := by
  cases m <;> decide

/-- A safe method is idempotent and carries no body. -/
theorem isIdempotent_of_isSafe {m : Method} (h : m.isSafe = true) :
    m.isIdempotent = true ∧ m.hasBody = false := by
  cases m <;> first | exact ⟨rfl, rfl⟩ | exact absurd h (by decide)

end Method
end RestDispatch
