import RestDispatch.Declaration.KeyPath

/-!
# Items and their attributes

The item that a declaration is: its attributes, what kind of item it is, its name and whether it has
parameters.
-/

namespace RestDispatch.Declaration

/-- What kind of item a declaration is. -/
inductive ItemKind
  | unitStruct
  | fieldedStruct
  | enumeration
  | union
  deriving DecidableEq

/-- The arguments of an attribute. -/
inductive AttributeArguments
  | none
  | assigned
  | list (content : List Token)

/-- An attribute. -/
structure Attribute where
  path : KeyPath
  arguments : AttributeArguments

/-- A declared item. -/
structure Item where
  attributes : List Attribute
  kind : ItemKind
  name : String
  generic : Bool

end RestDispatch.Declaration
