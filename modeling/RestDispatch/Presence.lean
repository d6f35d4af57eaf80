/-!
# Presence of slots

A route has a slot for path parameters, one for query parameters and one for a body, and declares of
each whether a caller has to fill it, may fill it or must not. A slot starts untouched; what may be
written into it follows from its kind, and `Slot.value?` is what reaches the route.
-/

namespace RestDispatch

/-- Whether a slot has to be filled. -/
inductive PresenceKind
  | required
  | optional
  | forbidden
  deriving DecidableEq

namespace PresenceKind

/-- The name of a kind. -/
def name : PresenceKind → String
  | .required => "required"
  | .optional => "optional"
  | .forbidden => "forbidden"

/-- The name of a kind in the description of a route. -/
def title : PresenceKind → String
  | .required => "Required"
  | .optional => "Optional"
  | .forbidden => "Forbidden"

/-- What a caller writes into a slot for values of a type. -/
def Input : PresenceKind → Type → Type
  | .required, α => α
  | .optional, α => Option α
  | .forbidden, _ => Option Empty

/-- The value that an input stands for. -/
def value? {α : Type} : (k : PresenceKind) → k.Input α → Option α
  | .required, a => some a
  | .optional, a => a
  | .forbidden, _ => none

end PresenceKind

/-- A slot of a call: untouched, or with what the caller wrote. -/
inductive Slot (k : PresenceKind) (α : Type)
  | untouched
  | written (input : k.Input α)

namespace Slot

variable {k : PresenceKind} {α : Type}

/-- The value in a slot. -/
def value? : Slot k α → Option α
  | .untouched => none
  | .written input => k.value? input

/-- Whether a slot may be left as it is. -/
def isReady : Slot k α → Bool
  | .untouched => k != .required
  | .written _ => true

@[simp] theorem value?_untouched : (untouched : Slot k α).value? = none := rfl

@[simp] theorem value?_written (input : k.Input α) :
    (written input : Slot k α).value? = k.value? input := rfl

/-- Nothing comes from a slot that must not be filled. -/
theorem value?_eq_none_of_forbidden (s : Slot .forbidden α) : s.value? = none := by
  cases s <;> rfl

/-- A slot that has to be filled holds a value when it is ready. -/
theorem isSome_value?_of_required {s : Slot .required α} (h : s.isReady = true) :
    s.value?.isSome = true := by
  cases s with
  | untouched => simp [isReady] at h
  | written a => rfl

end Slot
end RestDispatch
