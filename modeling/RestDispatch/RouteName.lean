import RestDispatch.Text.Quoted

/-!
# Route names

The names that routes are registered under. A name is not empty, has no blank at either end and no
control character anywhere; `RouteName.fault?` tells which of these it misses first.
-/

namespace RestDispatch

/-- Why a text is no route name. -/
inductive RouteNameFault
  | empty
  | surroundingBlank
  | control (c : Char)
  deriving DecidableEq

/-- The wording of a fault. -/
def RouteNameFault.message : RouteNameFault → String
  | .empty => "route name cannot be empty"
  | .surroundingBlank => "route name cannot start or end with whitespace"
  | .control c => "route name contains control character " ++ Text.quotedChar c

/-- The first rule for route names that a text breaks. -/
def RouteName.fault? (s : String) : Option RouteNameFault :=
  let cs := s.toList
  if cs = [] then some .empty
  else if Text.trimBlank cs ≠ cs then some .surroundingBlank
  else (cs.find? Text.isControl).map .control

/-- A valid route name. -/
structure RouteName where
  text : String
  valid : RouteName.fault? text = none
  deriving DecidableEq

namespace RouteName

/-- A text as a route name. -/
def ofString (s : String) : Except RouteNameFault RouteName :=
  match h : fault? s with
  | none => .ok ⟨s, h⟩
  | some e => .error e

end RouteName
end RestDispatch
