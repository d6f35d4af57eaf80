import RestDispatch.Presence

/-!
# Path parameters

Path parameters have types of the application, which `ParamTypes` names. A route declares the type
of its own and their presence; a schema holds routes with parameters of many types, and there a
value carries the name of its type, so that it can be told whether it is of the type that a route
declares.
-/

namespace RestDispatch

/-- Names of types of path parameters, and the types that they name. -/
class ParamTypes (τ : Type) where
  Value : τ → Type
  decEq : DecidableEq τ

instance {τ : Type} [ParamTypes τ] : DecidableEq τ := ParamTypes.decEq

/-- The path parameters that a route declares. -/
inductive PathParams (τ : Type)
  | required (t : τ)
  | optional (t : τ)
  | forbidden

/-- A value of path parameters with the name of its type. -/
structure ParamValue (τ : Type) [ParamTypes τ] where
  type : τ
  value : ParamTypes.Value type

namespace PathParams

variable {τ : Type} [ParamTypes τ]

/-- The presence of path parameters. -/
def kind : PathParams τ → PresenceKind
  | .required _ => .required
  | .optional _ => .optional
  | .forbidden => .forbidden

/-- The values of path parameters; where they must not be given there is none. -/
def Value : PathParams τ → Type
  | .required t => ParamTypes.Value t
  | .optional t => ParamTypes.Value t
  | .forbidden => Empty

/-- A value with the name of its type. -/
def erase : (p : PathParams τ) → p.Value → ParamValue τ
  | .required t, v => ⟨t, v⟩
  | .optional t, v => ⟨t, v⟩
  | .forbidden, v => nomatch v

/-- A value as one of the declared type. -/
def cast? : (p : PathParams τ) → ParamValue τ → Option p.Value
  | .required t, v => if h : v.type = t then some (h ▸ v.value) else none
  | .optional t, v => if h : v.type = t then some (h ▸ v.value) else none
  | .forbidden, _ => none

/-- A value of the declared type is found again. -/
@[simp] theorem cast?_erase (p : PathParams τ) (v : p.Value) : p.cast? (p.erase v) = some v := by
  cases p with
  | required t => simp [cast?, erase]
  | optional t => simp [cast?, erase]
  | forbidden => exact nomatch v

/-- The type of the path parameters that a route declares, if it declares any. -/
def type? : PathParams τ → Option τ
  | .required t => some t
  | .optional t => some t
  | .forbidden => none

theorem type?_eq_some (p : PathParams τ) (v : p.Value) : p.type? = some (p.erase v).type := by
  cases p with
  | required t => rfl
  | optional t => rfl
  | forbidden => exact nomatch v

/-- A value of the declared type is found, and stays what it was. -/
theorem exists_cast?_eq_some {p : PathParams τ} {v : ParamValue τ} (h : p.type? = some v.type) :
    ∃ w, p.cast? v = some w ∧ p.erase w = v := by
  obtain ⟨t, v⟩ := v
  cases p with
  | required t' =>
    cases h
    exact ⟨v, by simp [cast?], rfl⟩
  | optional t' =>
    cases h
    exact ⟨v, by simp [cast?], rfl⟩
  | forbidden => cases h

/-- A value of another type is not found. -/
theorem cast?_eq_none {p : PathParams τ} {v : ParamValue τ} (h : p.type? ≠ some v.type) :
    p.cast? v = none := by
  cases p with
  | required t => exact dif_neg fun e => h (congrArg some e.symm)
  | optional t => exact dif_neg fun e => h (congrArg some e.symm)
  | forbidden => rfl

end PathParams
end RestDispatch
