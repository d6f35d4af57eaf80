import RestDispatch.Declaration.Literal
import RestDispatch.Declaration.Ty

/-!
# Expressions in declarations

The expression that gives a route its URL, as far as URLs are classified by it: a literal, a closure
with the types of its parameters, a path, or anything else. The tokens of an expression are kept.
-/

namespace RestDispatch.Declaration

/-- What kind of expression a list of tokens is. -/
inductive ExprForm
  | text (l : StringLiteral)
  | literal
  /-- A closure with the type of each parameter, if it has one. -/
  | closure (params : List (Option Ty))
  | path
  | other

/-- An expression with its tokens. -/
structure Expr where
  form : ExprForm
  tokens : List Token

namespace ExprForm

/-- The form of a literal. -/
def ofLiteral (l : Literal) : ExprForm :=
  match l.kind, l.tokens with
  | .text value, [t] => .text ⟨value, t⟩
  | _, _ => .literal

end ExprForm

end RestDispatch.Declaration
