import RestDispatch.Declaration.Expr
import RestDispatch.Declaration.Item

/-!
# Grammars

Types, expressions and items are read by a parser library. A `Grammar` stands for the library: what
a declaration of a route is, and what is made of it, is said over any grammar.
-/

namespace RestDispatch.Declaration

/-- The readers of a parser library: of the type and of the expression that a list of tokens begins
with, and of the item that the whole of it is. -/
class Grammar where
  ty : Reader Ty
  expr : Reader Expr
  item : List Token → Except DeclarationFault Item

end RestDispatch.Declaration
