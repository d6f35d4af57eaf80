import RestDispatch.Declaration.Token

/-!
# Types in declarations

The types that a declaration names, as far as slots are classified by them: a path with the
arguments of its last segment, a reference, the unit type and a type in parentheses. Any other type
is the list of its tokens. `Ty.tokens` writes a type as it was read.
-/

namespace RestDispatch.Declaration

/-- An argument of a generic type: a type, or the tokens of a lifetime, a constant or a binding. -/
inductive TyArgument (τ : Type)
  | type (t : τ)
  | other (tokens : List Token)

/-- The arguments of a path segment between angle brackets, with the marks around them. -/
structure TyArguments (τ : Type) where
  opening : List Token
  items : List (TyArgument τ)
  commas : List Token
  closing : Token

/-- A type. -/
inductive Ty
  /-- A path: whether a type qualifies it, its tokens up to the last name, that name and its
  arguments. -/
  | path (qualified : Bool) (lead : List Token) (name : String)
      (arguments : Option (TyArguments Ty))
  /-- A reference: its marks, and the type referred to. -/
  | reference (marks : List Token) (target : Ty)
  | unit
  | paren (t : Ty)
  | other (tokens : List Token)

instance : Inhabited Ty := ⟨.unit⟩

namespace Ty

mutual

/-- The tokens of a type. -/
def tokens : Ty → List Token
  | .path _ lead name arguments => lead ++ .word name :: argumentsTokens arguments
  | .reference marks target => marks ++ target.tokens
  | .unit => [.group .parenthesis []]
  | .paren t => [.group .parenthesis t.tokens]
  | .other ts => ts

/-- The tokens of the arguments of a path. -/
def argumentsTokens : Option (TyArguments Ty) → List Token
  | none => []
  | some ⟨opening, items, commas, closing⟩ =>
    opening ++ itemsTokens items commas ++ [closing]

/-- The tokens of arguments and of the commas between and after them. -/
def itemsTokens : List (TyArgument Ty) → List Token → List Token
  | [], _ => []
  | i :: is, [] => argumentTokens i ++ itemsTokens is []
  | i :: is, c :: cs => argumentTokens i ++ c :: itemsTokens is cs

/-- The tokens of an argument. -/
def argumentTokens : TyArgument Ty → List Token
  | .type t => t.tokens
  | .other ts => ts

end

/-- The type under any number of parentheses. -/
def bare : Ty → Ty
  | .paren t => t.bare
  | t => t

/-- Whether a type is a bound by itself. -/
def isBound : Ty → Bool
  | .path false _ _ _ => true
  | _ => false

/-- The only argument of a path that ends in `Option`, if it is a type. -/
def optionArgument? : Ty → Option Ty
  | .path false _ "Option" (some ⟨_, [.type t], _, _⟩) => some t
  | _ => none

end Ty
end RestDispatch.Declaration
