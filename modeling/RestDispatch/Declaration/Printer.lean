import RestDispatch.Declaration.Implementation
import RestDispatch.Text.Quoted

/-!
# Texts of route implementations

The parts of a route made from a declaration as token texts with single spaces between them. What
the declaration gives is written as it stands there; the rest is the fixed text that names the
route library.
-/

namespace RestDispatch.Declaration

/-- The texts of a path into the route library. -/
def libraryPath (names : List String) : List String :=
  ("routekit" :: names).flatMap fun n => [":", ":", n]

/-- A text as a string literal. NUL is written with two digits where a digit below eight follows,
and single quotes are left alone. -/
def literalChars : List Char → List Char
  | [] => []
  | c :: cs =>
    if c.toNat = 0 ∧ ('0' ≤ cs.headD ' ' ∧ cs.headD ' ' ≤ '7') then
      '\\' :: 'x' :: '0' :: '0' :: literalChars cs
    else Text.quoteChar '"' c ++ literalChars cs

/-- A text as a string literal. -/
def literalText (s : String) : String := String.ofList ('"' :: literalChars s.toList ++ ['"'])

/-- The texts of a type. -/
def Ty.texts (t : Ty) : List String := Token.textsOfList t.tokens

/-- The texts of a path with one type as its argument. -/
def applied (names : List String) (t : Ty) : List String :=
  libraryPath names ++ "<" :: t.texts ++ [">"]

/-- The texts of a marker. -/
def Marker.texts : Marker → List String
  | .required t => applied ["Required"] t
  | .optional t => applied ["Optional"] t
  | .forbidden => libraryPath ["Forbidden"]

/-- The texts of a response. -/
def ResponseDeclaration.texts : ResponseDeclaration → List String
  | .typed .json t => applied ["response", "JsonFormat"] t
  | .typed .yaml t => applied ["response", "YamlFormat"] t
  | .typed .xml t => applied ["response", "XmlFormat"] t
  | .untyped .text => libraryPath ["response", "PlainTextFormat"]
  | .untyped .html => libraryPath ["response", "HtmlFormat"]
  | .untyped .csv => libraryPath ["response", "CsvFormat"]
  | .untyped .binary => libraryPath ["response", "BinaryFormat"]
  | .untyped .empty => libraryPath ["response", "EmptyFormat"]

/-- The texts of the call that makes a URL rule. -/
def ruleTexts (constructor : String) (argument : List String) : List String :=
  libraryPath ["UrlRule", constructor] ++ "(" :: argument ++ [")"]

/-- The texts of a URL rule. -/
def UrlForm.texts : UrlForm → List String
  | .literal l => ruleTexts "literal" l.token.texts
  | .computed e => ruleTexts "computed" (Token.textsOfList e.tokens)
  | .builder e _ => ruleTexts "builder" (Token.textsOfList e.tokens)
  | .optionalBuilder e _ => ruleTexts "optional_builder" (Token.textsOfList e.tokens)

/-- The texts of a string made from a literal. -/
def stringTexts (s : String) : List String := [literalText s, ".", "to_string", "(", ")"]

/-- The texts that insert a default query parameter. -/
def insertTexts (e : String × String) : List String :=
  ["query", ".", "insert", "("] ++ stringTexts e.1 ++ "," :: stringTexts e.2 ++ [")", ";"]

/-- The texts that make the default query parameters. -/
def defaultTexts (defaults : List (String × String)) : List String :=
  ["let", "mut", "query", "="] ++ libraryPath ["QueryMap", "new"] ++ ["(", ")", ";"] ++
    defaults.flatMap insertTexts ++ ["query"]

/-- Texts with single spaces between them. -/
def spaced (texts : List String) : String := String.intercalate " " texts

/-- Texts between braces. -/
def braced (texts : List String) : List String := "\x7b" :: texts ++ ["\x7d"]

/-- The parts of an implementation as texts. -/
structure Rendered where
  interface : String
  typeName : String
  name : String
  method : String
  pathParams : String
  queryParams : String
  data : String
  response : String
  url : String
  defaultQuery : Option String

/-- Writes an implementation. -/
def Implementation.render (i : Implementation) : Rendered where
  interface := spaced (libraryPath ["Route"])
  typeName := i.typeName
  name := spaced i.name.token.texts
  method := spaced (libraryPath ["RestMethod", i.method.title])
  pathParams := spaced i.pathParams.texts
  queryParams := spaced i.queryParams.texts
  data := spaced i.data.texts
  response := spaced i.response.texts
  url := spaced (braced i.url.texts)
  defaultQuery := if i.defaults = [] then none else some (spaced (braced (defaultTexts i.defaults)))

end RestDispatch.Declaration
