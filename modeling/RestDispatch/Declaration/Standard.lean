import RestDispatch.Declaration.ExprReader
import RestDispatch.Declaration.Grammar
import RestDispatch.Declaration.ItemReader

/-!
# The standard grammar

The readers of types, expressions and items as a grammar. The first two are given a number of steps
that is enough for the tokens before them.
-/

namespace RestDispatch.Declaration

open Reader

/-- A number of steps that no reading of the tokens goes beyond. -/
def fuelFor (ts : List Token) : Nat := 8 * Token.weightOfList ts + 16

/-- Reads a type as far as it goes. -/
def readWholeTy : Reader Ty := do
  let ts ← peek
  readTy true (fuelFor ts)

/-- Reads an expression as far as it goes. -/
def readWholeExpr : Reader Expr := do
  let ts ← peek
  let (form, read) ← consumed (readExpr true (fuelFor ts))
  return ⟨form, read⟩

/-- The grammar by the readers of types, expressions and items. -/
instance standard : Grammar where
  ty := readWholeTy
  expr := readWholeExpr
  item := Item.ofTokens

end RestDispatch.Declaration
