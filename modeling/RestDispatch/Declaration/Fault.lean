import RestDispatch.Declaration.Token
import RestDispatch.RouteName

/-!
# Faults of declarations

Why a declaration is refused: a token that its grammar does not admit, or a rule for routes that it
breaks. One fault is reported for a declaration, the first in reading order.
-/

namespace RestDispatch

/-- Why a declaration is refused. -/
inductive DeclarationFault
  /-- A token is left over, in a group if a delimiter is given. -/
  | unexpectedToken (within : Option Declaration.Delimiter)
  /-- The grammar wants something else. -/
  | expected (what : String) (atEnd : Bool)
  /-- The grammar wants a mark. -/
  | expectedMark (c : Char)
  | keywordAsName (word : String)
  | literalAsKey
  | tokenAsKey
  | attributeWithoutArguments (name : String)
  | attributeWithValue (name : String)
  | fieldedStruct
  | enumeration
  | union
  | generic
  | missingKeys (keys : List String)
  | invalidName (fault : RouteNameFault)
  | unknownMethod (name : String)
  | unknownFormat (name : String)
  | formatNeedsType (name : String)
  | formatTakesNoType (name : String)
  | unknownKey (key : String)
  | duplicateKey
  | defaultKeyNotName
  | duplicateDefault (key : String)
  | defaultNotScalar
  | literalUrlWithParams
  | closureUrlWithParams
  | urlLiteralNotText
  | urlForm
  | closureArity
  | closureUnannotated
  | closureParameter
  deriving DecidableEq

namespace DeclarationFault

/-- The wording of a route name's fault in a declaration. -/
def nameMessage : RouteNameFault → String
  | .empty => "route name cannot be empty"
  | .surroundingBlank => "route name cannot start or end with whitespace"
  | .control c => "route name cannot contain control character " ++ Text.quotedChar c

/-- The wording of a fault. -/
def message : DeclarationFault → String
  | .unexpectedToken none => "unexpected token"
  | .unexpectedToken (some d) => "unexpected token, expected `" ++ d.closing ++ "`"
  | .expected what true => "unexpected end of input, expected " ++ what
  | .expected what false => "expected " ++ what
  | .expectedMark c => "expected `" ++ String.singleton c ++ "`"
  | .keywordAsName word => "expected identifier, found keyword `" ++ word ++ "`"
  | .literalAsKey => "unexpected literal in nested attribute, expected ident"
  | .tokenAsKey => "unexpected token in nested attribute, expected ident"
  | .attributeWithoutArguments name =>
    "expected attribute arguments in parentheses: #[" ++ name ++ "(...)]"
  | .attributeWithValue name => "expected parentheses: #[" ++ name ++ "(...)]"
  | .fieldedStruct => "Route can only be derived on unit structs (e.g., `struct GetUser;`)"
  | .enumeration => "Route cannot be derived on enums"
  | .union => "Route cannot be derived on unions"
  | .generic => "Route cannot be derived on generic structs"
  | .missingKeys keys =>
    "missing required route attribute(s): " ++
      String.intercalate ", " (keys.map fun k => "`" ++ k ++ "`") ++
      "; every route needs a name, method, url and response"
  | .invalidName f => nameMessage f
  | .unknownMethod name =>
    "unknown HTTP method: `" ++ name ++
      "`. Expected one of: Get, Post, Put, Patch, Delete, Head, Options, Trace"
  | .unknownFormat name =>
    "unknown response format: `" ++ name ++
      "`. Expected one of: json(T), yaml(T), xml(T), text, html, csv, binary, empty"
  | .formatNeedsType name =>
    "`" ++ name ++ "` responses need a target type, e.g. `" ++ name ++ "(User)`"
  | .formatTakesNoType name => "`" ++ name ++ "` responses do not take a type"
  | .unknownKey key =>
    "unknown route attribute: `" ++ key ++ "`. Expected one of: name, method, url, path_params, " ++
      "query_params, data, response, default_query"
  | .duplicateKey => "duplicate route attribute"
  | .defaultKeyNotName => "default query keys must be identifiers"
  | .duplicateDefault key => "duplicate default query key `" ++ key ++ "`"
  | .defaultNotScalar => "default query values must be string, integer, float or bool literals"
  | .literalUrlWithParams => "a literal url takes no path parameters"
  | .closureUrlWithParams => "`path_params` is taken from the url closure's parameter type"
  | .urlLiteralNotText => "url literals must be strings"
  | .urlForm => "url must be a string literal, a closure or a function path"
  | .closureArity => "url closures take at most one parameter"
  | .closureUnannotated =>
    "annotate the url closure parameter: `|p: &T|` or `|p: Option<&T>|`"
  | .closureParameter => "url closure parameters must be `&T` or `Option<&T>`"

end DeclarationFault
end RestDispatch
