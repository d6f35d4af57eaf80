import RestDispatch.Error
import RestDispatch.Json.Reader
import RestDispatch.Text.Utf8
import RestDispatch.Xml.Reader
import RestDispatch.Yaml.Reader

/-!
# Response formats

What a route declares its response body to be, and the reading of a body as that. The typed formats
refuse what is not a text of the declared shape, the text formats only what is not UTF-8, and the
binary and empty formats nothing.
-/

namespace RestDispatch

/-- A format whose bodies are read as data of a type `α`, with the reader of that type. A reader of
JSON tells what it rejects, and any other only that it does. -/
inductive TypedFormat (α : Type)
  | json (read : Bytes → Except Json.Fault α)
  | yaml (read : Bytes → Option α)
  | xml (read : Bytes → Option α)

/-- Reads a body as a datum. For JSON, a body without octets has an error of its own. -/
def TypedFormat.parse {α : Type} (format : TypedFormat α) (body : Bytes) :
    Except ValidationError α :=
  match format with
  | .json read => if body = [] then .error .emptyBody else (read body).mapError (.ofJson body)
  | .yaml read =>
    match read body with
    | some v => .ok v
    | none => .error .yamlParse
  | .xml read =>
    match read body with
    | some v => .ok v
    | none => .error .xmlParse

/-- The declared format of a response body. -/
inductive ResponseFormat
  | json (shape : Shape)
  | yaml (shape : Shape)
  | xml (shape : Shape)
  | text
  | html
  | csv
  | binary
  | empty

/-- A response body that has been read. -/
inductive ResponseValue
  | datum (v : Json)
  | text (s : String)
  | octets (bs : Bytes)
  | nothing

namespace ResponseFormat

/-- The media type that belongs to a format. -/
def contentType : ResponseFormat → String
  | .json _ => "application/json"
  | .yaml _ => "application/yaml"
  | .xml _ => "application/xml"
  | .text => "text/plain"
  | .html => "text/html"
  | .csv => "text/csv"
  | .binary => "application/octet-stream"
  | .empty => "*/*"

/-- Reads a body as a text, which `expected` describes. -/
def parseText (expected : String) (body : Bytes) : Except ValidationError ResponseValue :=
  match Utf8.decode body with
  | .ok s => .ok (.text s)
  | .error f => .error (.contentTypeMismatch expected ("invalid UTF-8: " ++ f.message))

/-- Reads a body in a format. -/
def parse (format : ResponseFormat) (body : Bytes) : Except ValidationError ResponseValue :=
  match format with
  | .json shape => ((TypedFormat.json (Json.parseAs shape)).parse body).map .datum
  | .yaml shape => ((TypedFormat.yaml (Yaml.parseAs shape)).parse body).map .datum
  | .xml shape => ((TypedFormat.xml (Xml.parseAs shape)).parse body).map .datum
  | .text => parseText "valid UTF-8 text" body
  | .html => parseText "valid UTF-8 HTML" body
  | .csv => parseText "valid UTF-8 CSV" body
  | .binary => .ok (.octets body)
  | .empty => .ok .nothing

end ResponseFormat
end RestDispatch
