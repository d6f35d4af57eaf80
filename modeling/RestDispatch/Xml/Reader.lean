import RestDispatch.Decimal.Numeral
import RestDispatch.Shape
import RestDispatch.Xml.Node

/-!
# Reading XML documents

`parseAs` reads the datum of a given shape. A record is an element whatever its name: an attribute
is the field of its name after an at sign, an element the field of its name, and the elements of one
name that stand side by side are a list. Everything else is the text of an element.
-/

namespace RestDispatch.Xml

open Decimal

/-- The key of the text that stands beside elements. -/
def textKey : String := "$text"

/-- The datum that a text stands for, for a shape that is neither optional nor a collection. -/
def textAs (shape : Shape) (s : String) : Option Json :=
  let trimmed := trimSpaces s.toList
  match shape with
  | .any | .text => some (.string s)
  | .unit => some .null
  | .bool =>
    if trimmed = "true".toList ∨ trimmed = ['1'] then some (.bool true)
    else if trimmed = "false".toList ∨ trimmed = ['0'] then some (.bool false)
    else none
  | .integer .unsigned64 => (readBounded 0x10000000000000000 trimmed).toOption.map fun n => .ofInt n
  | .integer k => (readSigned? trimmed).bind fun i => if k.admits i then some (.ofInt i) else none
  | .float => (read? trimmed).map .ofFloat
  | .choice variants => if s ∈ variants then some (.string s) else none
  | _ => none

/-- The text that an element contains, if it contains nothing else. -/
def contentText? : List Node → Option String
  | [] => some ""
  | [.text ps] => Piece.readAll? ps
  | _ => none

/-- Whether an element may be passed over: text that it begins with is looked into. -/
def canSkip : List Node → Bool
  | .text ps :: _ => (Piece.readAll? ps).isSome
  | _ => true

/-- The data found in an element so far, and the nodes that are left. -/
abbrev Found := List (String × Json)

/-- Reads elements of one name that stand side by side, and what follows them. Blank text may stand
between them. -/
def readRun (read : List Node → Bytes → Bool → Option Json) (name : Bytes) :
    List Node → Option (List Json × List Node)
  | .element name' attributes null content :: ns =>
    if name' = name then do
      let v ← read content attributes null
      let (vs, rest) ← readRun read name ns
      return (v :: vs, rest)
    else some ([], .element name' attributes null content :: ns)
  | .text ps :: ns => do
    let s ← Piece.readAll? ps
    if isBlankText s then readRun read name ns else some ([], .text ps :: ns)
  | [] => some ([], [])

/-- Adds the datum of a field, which must not have been found before. -/
def addField (found : Found) (f : RecordField Shape) (v : Option Json) : Option Found :=
  if found.any fun e => e.1 == f.name then none else v.map fun v => (f.name, v) :: found

/-- Reads the attributes of a record. -/
def readAttributesAs (fields : List (RecordField Shape)) (found : Found) :
    List Attribute → Option Found
  | [] => some found
  | (name, value) :: rest => do
    let key ← attributeKey? name
    match RecordField.find? key fields with
    | none => readAttributesAs fields found rest
    | some f =>
      let v := (attributeValue? value).bind fun s =>
        if f.shape.isOptional ∧ s = "" then some .null else textAs f.shape.core s
      readAttributesAs fields (← addField found f v) rest

/-- Reads the content of a record; `read` reads an element as a shape, `fuel` exceeds the number of
nodes, and `null` says that the optional fields are null. -/
def readContentAs (read : Shape → List Node → Bytes → Bool → Option Json)
    (fields : List (RecordField Shape)) (null : Bool) : Nat → Found → List Node → Option Found
  | _, found, [] => some found
  | 0, _, _ => none
  | fuel + 1, found, .text ps :: ns => do
    let s ← Piece.readAll? ps
    match if isBlankText s then none else RecordField.find? textKey fields with
    | none => readContentAs read fields null fuel found ns
    | some f => readContentAs read fields null fuel (← addField found f (textAs f.shape.core s)) ns
  | fuel + 1, found, .element name attributes isNull content :: ns => do
    let key ← elementKey? name
    match RecordField.find? key fields with
    | none => if canSkip content then readContentAs read fields null fuel found ns else none
    | some f =>
      if f.shape.isOptional ∧ (null ∨ isNull) then
        let v := if canSkip content then some .null else none
        readContentAs read fields null fuel (← addField found f v) ns
      else
        match f.shape.core with
        | .list s =>
          let (vs, rest) ← readRun (read s) name (.element name attributes isNull content :: ns)
          readContentAs read fields null fuel (← addField found f (some (.array vs))) rest
        | s =>
          let v := read s content attributes isNull
          readContentAs read fields null fuel (← addField found f v) ns

/-- Reads the attributes of an element as the fields of an object, the last of a name counting. -/
def attributeFields (done : Found) : List Attribute → Option Found
  | [] => some done
  | (name, value) :: rest => do
    let key ← attributeKey? name
    let s ← attributeValue? value
    attributeFields (insertEntry key (.string s) done) rest

/-- Reads the content of an element as the fields of an object, the last of a name counting. -/
def contentFields (read : List Node → Bytes → Option Json) (done : Found) :
    List Node → Option Found
  | [] => some done
  | .text ps :: ns => do
    let s ← Piece.readAll? ps
    contentFields read (if isBlankText s then done else insertEntry textKey (.string s) done) ns
  | .element name attributes _ content :: ns => do
    let key ← elementKey? name
    let v ← read content attributes
    contentFields read (insertEntry key v done) ns

/-- Reads an element as a shape; `fuel` exceeds the depth of its content. -/
def readElement : Nat → Shape → List Node → Bytes → Bool → Option Json
  | 0, _, _, _, _ => none
  | fuel + 1, shape, content, attributes, null =>
    match shape.core with
    | .any => do
      let found ← attributeFields [] (← attributes? attributes)
      let found ← contentFields (fun c a => readElement fuel .any c a false) found content
      return .object found
    | .record _ fields => do
      let found ← readAttributesAs fields [] (← attributes? attributes)
      let found ← readContentAs (readElement fuel) fields null (content.length + 1) found content
      let fields ← (RecordField.collect found fields).toOption
      return .object fields
    | .unit => if canSkip content then some .null else none
    | s => contentText? content >>= textAs s

/-! ### Documents -/

/-- The nodes of a document without blank text at their head. -/
def dropBlank : List Node → Option (List Node)
  | .text ps :: ns => do
    let s ← Piece.readAll? ps
    if isBlankText s then dropBlank ns else return .text ps :: ns
  | ns => some ns

/-- Reads a node of a document as a shape. -/
def readNode (fuel : Nat) (shape : Shape) : Node → Option Json
  | .text ps => Piece.readAll? ps >>= textAs shape.core
  | .element name attributes null content =>
    match shape.core with
    | .choice variants => do
      let key ← elementKey? name
      if key ∈ variants ∧ canSkip content then return .string key else none
    | s => readElement fuel s content attributes null

/-- Reads the first node that is not blank text. -/
def readFirst (fuel : Nat) (shape : Shape) (ns : List Node) : Option Json := do
  match ← dropBlank ns with
  | n :: _ => readNode fuel shape n
  | [] => none

/-- Reads all nodes that are not blank text. -/
def readEach (fuel : Nat) (shape : Shape) : List Node → Option (List Json)
  | [] => some []
  | .text ps :: ns => do
    let s ← Piece.readAll? ps
    if isBlankText s then readEach fuel shape ns
    else return (← textAs shape.core s) :: (← readEach fuel shape ns)
  | n :: ns => return (← readNode fuel shape n) :: (← readEach fuel shape ns)

/-- Whether a document is null where null is admitted. -/
def isNullDocument : List Node → Bool → Option Bool
  | [], ended => if ended then some true else none
  | .text ps :: _, _ => (Piece.readAll? ps).map (· == "")
  | .element _ _ null content :: _, _ => if null then (if canSkip content then some true else none)
    else some false

/-- Reads the text of a datum of a shape. What follows the datum is not looked into, unless it is a
list, which extends to the end. -/
def parseAs (shape : Shape) (text : Bytes) : Option Json := do
  let (nodes, ended) := readDocument text
  let fuel := text.length + 1
  let null ← if shape.isOptional then isNullDocument nodes ended else some false
  if null then return .null
  else
    match shape.core with
    | .list s => if ended then (readEach fuel s nodes).map .array else none
    | s => readFirst fuel s nodes

end RestDispatch.Xml
