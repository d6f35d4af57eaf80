import RestDispatch.Shape
import RestDispatch.Yaml.Node
import RestDispatch.Yaml.Plain

/-!
# Reading YAML documents

`parseAs` reads the datum of a given shape. The text of a scalar is taken as the shape demands;
where any value is admitted, a plain scalar stands for the value that its text denotes. Collections
nest at most 128 deep, and aliases are followed at most a hundred times as often as the document has
marks.
-/

namespace RestDispatch.Yaml

open Decimal

/-- How deep collections may nest. -/
def depthLimit : Nat := 128

/-- How often aliases may be followed for each mark of a document. -/
def aliasesPerMark : Nat := 100

/-- The tag of a type that every document knows. -/
def coreTag (name : String) : String := "tag:yaml.org,2002:" ++ name

/-- Whether a tag is of an application and not of the language. -/
def isOwnTag (tag : Option String) : Bool :=
  match tag with
  | some t => t.toList.head? == some '!'
  | none => false

/-- An integer as a value. One of more than 64 bits is refused, and of more than 128 bits it is
none. -/
def integerValue? (cs : List Char) : Option (Option Json) :=
  match integer? cs with
  | none => none
  | some i =>
    if -0x80000000000000000000000000000000 ≤ i ∧ i < 0x100000000000000000000000000000000 then
      some ((Integer64.ofInt? i).map fun n => .number (.integer n))
    else none

/-- The value that a plain scalar stands for. -/
def plainValue (s : String) : Option Json :=
  if s = "" ∨ isNullWord s then some .null
  else
    match truthWord? s with
    | some b => some (.bool b)
    | none =>
      match integerValue? s.toList with
      | some v => v
      | none =>
        match if isPadded s.toList then none else float? s.toList with
        | some x => some (.ofFloat x)
        | none => some (.string s)

/-- The value that a scalar stands for; its tag decides before its style. -/
def scalarValue (tag : Option String) (s : String) (style : ScalarStyle) : Option Json :=
  if isOwnTag tag then none
  else
    match tag with
    | none => if style = .plain then plainValue s else some (.string s)
    | some t =>
      if t = coreTag "bool" then (truthWord? s).map .bool
      else if t = coreTag "int" then (integerValue? s.toList).join
      else if t = coreTag "float" then (float? s.toList).map .ofFloat
      else if t = coreTag "null" then if isNullWord s then some .null else none
      else some (.string s)

/-- Whether the text of a scalar counts as a word of a type: it is plain, or literal with the tag of
the type. -/
def isWordOf (type : String) (tag : Option String) (style : ScalarStyle) : Bool :=
  style == .plain || (style == .literal && tag == some (coreTag type))

/-- The datum of a scalar for a shape that is neither optional nor a collection. -/
def scalarAs (shape : Shape) (tag : Option String) (s : String) (style : ScalarStyle) :
    Option Json :=
  match shape with
  | .any => scalarValue tag s style
  | .text => some (.string s)
  | .unit =>
    if isWordOf "null" tag style ∧ (s = "" ∨ isNullWord s) then some .null else none
  | .bool => if isWordOf "bool" tag style then (truthWord? s).map .bool else none
  | .integer .unsigned64 =>
    if isWordOf "int" tag style then
      (unsigned? s.toList).bind fun n =>
        (Integer64.ofInt? n).map fun i => .number (.integer i)
    else none
  | .integer k =>
    if isWordOf "int" tag style then
      (integer? s.toList).bind fun n =>
        if k.admits n then (Integer64.ofInt? n).map fun i => .number (.integer i) else none
    else none
  | .float => if isWordOf "float" tag style then (float? s.toList).map .ofFloat else none
  | .choice variants =>
    if isOwnTag tag then
      let variant := String.ofList ((tag.getD "").toList.drop 1)
      if variant ∈ variants ∧ style = .plain ∧ (s = "" ∨ isNullWord s) then some (.string variant)
      else none
    else if s ∈ variants then some (.string s)
    else none
  | .list _ => if s = "" ∧ style = .plain then some (.array []) else none
  | .record _ fields =>
    if s = "" ∧ style = .plain then (RecordField.collect [] fields).toOption.map .object else none
  | .optional _ => none

/-- Whether a scalar is null where null is admitted, or nothing for a scalar that has the tag of
null and is not. -/
def isAbsent (tag : Option String) (s : String) (style : ScalarStyle) : Option Bool :=
  if style ≠ .plain then some false
  else
    match tag with
    | some t =>
      if t = coreTag "null" then if isNullWord s then some true else none else some false
    | none => some (s = "" || isNullWord s)

/-- A document that is read: its nodes with anchors. -/
abbrev Anchors := List (Nat × Node)

/-- The last node that has an anchor. -/
def Anchors.find? (anchors : Anchors) (id : Nat) : Option Node := anchors.reverse.lookup id

/-- The node that a node stands for, and how many aliases may still be followed. -/
def follow (anchors : Anchors) (jumps : Nat) : Node → Option (Node × Nat)
  | .alias id =>
    match jumps with
    | 0 => none
    | jumps + 1 => (anchors.find? id).map (·, jumps)
  | n => some (n, jumps)

/-- The key of an entry is the text of a scalar. -/
def readKey (anchors : Anchors) (jumps : Nat) (n : Node) : Option (String × Nat) :=
  match follow anchors jumps n with
  | some (.scalar _ _ s _, jumps) => some (s, jumps)
  | _ => none

/-- Reads each item of a sequence. -/
def readEach (read : Nat → Node → Option (Json × Nat)) (jumps : Nat) :
    List Node → Option (List Json × Nat)
  | [] => some ([], jumps)
  | n :: ns => do
    let (v, jumps) ← read jumps n
    let (vs, jumps) ← readEach read jumps ns
    return (v :: vs, jumps)

/-- Reads the entries of a mapping in which the last of a key counts, after those of `done`. -/
def readMapping (anchors : Anchors) (read : Nat → Node → Option (Json × Nat)) (jumps : Nat)
    (done : List (String × Json)) : List (Node × Node) → Option (List (String × Json) × Nat)
  | [] => some (done, jumps)
  | (k, v) :: es => do
    let (name, jumps) ← readKey anchors jumps k
    let (value, jumps) ← read jumps v
    readMapping anchors read jumps (insertEntry name value done) es

/-- Reads the fields of a record after those found. A field that is not of the record is passed
over, and one that was found is refused. -/
def readFields (anchors : Anchors) (fields : List (RecordField Shape))
    (read : Shape → Nat → Node → Option (Json × Nat)) (jumps : Nat)
    (found : List (String × Json)) : List (Node × Node) → Option (List (String × Json) × Nat)
  | [] => some (found, jumps)
  | (k, v) :: es => do
    let (name, jumps) ← readKey anchors jumps k
    match RecordField.find? name fields with
    | none => readFields anchors fields read jumps found es
    | some f =>
      if found.any fun e => e.1 == name then none
      else
        let (value, jumps) ← read f.shape jumps v
        readFields anchors fields read jumps ((name, value) :: found) es

/-- The datum that stands for a text without a document. -/
def voidAs (shape : Shape) : Option Json :=
  match shape with
  | .optional _ | .any | .unit => some .null
  | .list _ => some (.array [])
  | .record _ fields => (RecordField.collect [] fields).toOption.map .object
  | _ => none

/-- Reads a node that is no alias as a shape; `read?` reads the nodes in it, unless no depth
remains. -/
def readContentAs (anchors : Anchors) (read? : Option (Shape → Nat → Node → Option (Json × Nat)))
    (shape : Shape) (jumps : Nat) : Node → Option (Json × Nat)
  | .alias _ => none
  | .void => (voidAs shape).map (·, jumps)
  | .scalar _ tag s style => do
    let absent ← if shape.isOptional then isAbsent tag s style else some false
    if absent then return (.null, jumps)
    else (scalarAs shape.core tag s style).map (·, jumps)
  | .sequence _ tag items =>
    match read?, shape.core with
    | some read, .any =>
      if isOwnTag tag then none
      else (readEach (read .any) jumps items).map fun r => (.array r.1, r.2)
    | some read, .list s => (readEach (read s) jumps items).map fun r => (.array r.1, r.2)
    | _, _ => none
  | .mapping _ tag entries =>
    match read?, shape.core with
    | some read, .any =>
      if isOwnTag tag then none
      else (readMapping anchors (read .any) jumps [] entries).map fun r => (.object r.1, r.2)
    | some read, .record _ fields => do
      let (found, jumps) ← readFields anchors fields read jumps [] entries
      let fields ← (RecordField.collect found fields).toOption
      return (.object fields, jumps)
    | _, _ => none

/-- Reads a node as a shape; `room` is the depth that remains. -/
def readAs (anchors : Anchors) (room : Nat) (shape : Shape) (jumps : Nat) (n : Node) :
    Option (Json × Nat) := do
  let (n, jumps) ← follow anchors jumps n
  match room with
  | 0 => readContentAs anchors none shape jumps n
  | room + 1 => readContentAs anchors (some (readAs anchors room)) shape jumps n

/-- Reads the text of a datum of a shape. -/
def parseAs (shape : Shape) (text : Bytes) : Option Json := do
  let n ← Node.ofText? text
  let (v, _) ← readAs n.anchored depthLimit shape (aliasesPerMark * n.size) n
  return v

end RestDispatch.Yaml
