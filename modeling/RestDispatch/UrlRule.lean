import RestDispatch.Error
import RestDispatch.PathParams
import RestDispatch.Text.Quoted

/-!
# URL rules

How a route comes by its URL: it is fixed, computed, or built from path parameters. The rule belongs
to the presence of the path parameters, so that a route cannot have a fixed URL and demand them.
-/

namespace RestDispatch

/-- A rule for the URL of a route with given path parameters. -/
inductive UrlRule {τ : Type} [ParamTypes τ] : PathParams τ → Type
  | literal (url : String) : UrlRule .forbidden
  | computed (build : Unit → String) : UrlRule .forbidden
  | builder {t : τ} (build : ParamTypes.Value t → String) : UrlRule (.required t)
  | optionalBuilder {t : τ} (build : Option (ParamTypes.Value t) → String) : UrlRule (.optional t)

namespace UrlRule

variable {τ : Type} [ParamTypes τ] {p : PathParams τ}

/-- The URL, where it is fixed. -/
def literal? : UrlRule p → Option String
  | .literal url => some url
  | _ => none

/-- The URL of a route from its path parameters. -/
def resolve (route : String) : UrlRule p → Option p.Value → Except ConfigError String
  | .literal url, _ => .ok url
  | .computed build, _ => .ok (build ())
  | .builder build, some v => .ok (build v)
  | .builder _, none => .error (.missingPathParams route)
  | .optionalBuilder build, v => .ok (build v)

/-- The description of a rule. -/
def describe : UrlRule p → String
  | .literal url => "Literal(" ++ Text.quoted url ++ ")"
  | .computed _ => "Computed(..)"
  | .builder _ => "Builder(..)"
  | .optionalBuilder _ => "OptionalBuilder(..)"

end UrlRule
end RestDispatch
