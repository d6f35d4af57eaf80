import RestDispatch.Json.Skip
import RestDispatch.Shape

/-!
# Reading JSON texts

`parse` reads the JSON text of a value and `parseAs` that of a datum of a given shape. Lists and
objects nest at most 127 deep. Of the fields of an object that have one name the last counts, while
a record refuses the second; a record may also be written as the list of its fields.
-/

namespace RestDispatch.Json

open Decimal

/-- How deep lists and objects may nest. -/
def depthLimit : Nat := 127

/-- The object of a list of fields, of which the last of a name counts. -/
def objectOf (fields : List (String × Json)) : Json :=
  .object (fields.foldl (fun es e => insertEntry e.1 e.2 es) [])

/-- Enters a list or an object that begins at `bs`. -/
def enter {α : Type} (room : Nat) (bs : Bytes) (k : Nat → Except Fault α) : Except Fault α :=
  match room with
  | 0 => faultPast bs .tooDeep
  | room + 1 => k room

mutual

/-- Reads a value; `room` is the depth that remains, and `fuel` exceeds the number of octets. -/
def readValue : Nat → Nat → Bytes → Except Fault (Json × Bytes)
  | 0, _, _ => faultAt [] .endInValue
  | fuel + 1, room, bs =>
    match skipBlank bs with
    | [] => faultPast [] .endInValue
    | b :: rest =>
      if b = 'n'.toUInt8 then (readWord ['u', 'l', 'l'] rest).map (.null, ·)
      else if b = 't'.toUInt8 then (readWord ['r', 'u', 'e'] rest).map (.bool true, ·)
      else if b = 'f'.toUInt8 then (readWord ['a', 'l', 's', 'e'] rest).map (.bool false, ·)
      else if b = '-'.toUInt8 then (readNumber true rest).map fun r => (.number r.1, r.2)
      else if isDigit b then (readNumber false (b :: rest)).map fun r => (.number r.1, r.2)
      else if b = '"'.toUInt8 then (readString rest).map fun r => (.string r.1, r.2)
      else if b = '['.toUInt8 then
        enter room (b :: rest) fun room =>
          (readItems fuel room true rest).map fun r => (.array r.1, r.2)
      else if b = '\x7b'.toUInt8 then
        enter room (b :: rest) fun room =>
          (readFields fuel room true rest).map fun r => (objectOf r.1, r.2)
      else faultPast (b :: rest) .expectedValue

/-- Reads the items of a list and its end. -/
def readItems : Nat → Nat → Bool → Bytes → Except Fault (List Json × Bytes)
  | 0, _, _, _ => faultAt [] .endInList
  | fuel + 1, room, first, bs => do
    match ← nextItem first bs with
    | .closed rest => return ([], rest)
    | .item rest =>
      let (v, rest) ← readValue fuel room rest
      let (vs, rest) ← readItems fuel room false rest
      return (v :: vs, rest)

/-- Reads the fields of an object and its end. -/
def readFields : Nat → Nat → Bool → Bytes → Except Fault (List (String × Json) × Bytes)
  | 0, _, _, _ => faultAt [] .endInObject
  | fuel + 1, room, first, bs => do
    match ← nextKey first bs with
    | .closed rest => return ([], rest)
    | .item rest =>
      let (k, rest) ← readString rest
      let rest ← readColon rest
      let (v, rest) ← readValue fuel room rest
      let (fs, rest) ← readFields fuel room false rest
      return ((k, v) :: fs, rest)

end

/-- Refuses the value at `bs`, which is not of the expected shape. A scalar is read first. -/
def wrongType {α : Type} (expected : String) (bs : Bytes) : Except Fault α :=
  match bs with
  | [] => faultPast [] .endInValue
  | b :: rest =>
    if b = 'n'.toUInt8 then do
      let rest ← readWord ['u', 'l', 'l'] rest
      faultAt rest (.invalidType .null expected)
    else if b = 't'.toUInt8 then do
      let rest ← readWord ['r', 'u', 'e'] rest
      faultAt rest (.invalidType (.bool true) expected)
    else if b = 'f'.toUInt8 then do
      let rest ← readWord ['a', 'l', 's', 'e'] rest
      faultAt rest (.invalidType (.bool false) expected)
    else if b = '-'.toUInt8 ∨ isDigit b then do
      let (n, rest) ← if b = '-'.toUInt8 then readNumber true rest else readNumber false (b :: rest)
      match n with
      | .integer i => faultAt rest (.invalidType (.integer i.val) expected)
      | .float x => faultAt rest (.invalidType (.float x) expected)
    else if b = '"'.toUInt8 then do
      let (s, rest) ← readString rest
      faultAt rest (.invalidType (.string s) expected)
    else if b = '['.toUInt8 then faultAt (b :: rest) (.invalidType .sequence expected)
    else if b = '\x7b'.toUInt8 then faultAt (b :: rest) (.invalidType .map expected)
    else faultPast (b :: rest) .expectedValue

/-- Reads a number, or refuses what is none. -/
def readNumeral (expected : String) (bs : Bytes) : Except Fault (JsonNumber × Bytes) :=
  match skipBlank bs with
  | [] => faultPast [] .endInValue
  | b :: rest =>
    if b = '-'.toUInt8 then readNumber true rest
    else if isDigit b then readNumber false (b :: rest)
    else wrongType expected (b :: rest)

/-- Reads an integer of a kind. -/
def readInteger (k : IntegerKind) (bs : Bytes) : Except Fault (Json × Bytes) := do
  let (n, rest) ← readNumeral k.name bs
  match n with
  | .integer i =>
    if k.admits i.val then return (.number (.integer i), rest)
    else faultAt rest (.invalidValue (.integer i.val) k.name)
  | .float x => faultAt rest (.invalidType (.float x) k.name)

/-- Reads a floating-point number; an integer is taken as the number nearest to it. -/
def readFloat (bs : Bytes) : Except Fault (Json × Bytes) := do
  let (n, rest) ← readNumeral "f64" bs
  match n with
  | .integer i => return (ofFloat (.ofInt i.val), rest)
  | .float x => return (ofFloat x, rest)

/-- Reads a string, or refuses what is none. -/
def readText (expected : String) (bs : Bytes) : Except Fault (String × Bytes) :=
  match skipBlank bs with
  | [] => faultPast [] .endInValue
  | b :: rest => if b = '"'.toUInt8 then readString rest else wrongType expected (b :: rest)

/-- Reads a truth value. -/
def readBool (bs : Bytes) : Except Fault (Json × Bytes) :=
  match skipBlank bs with
  | [] => faultPast [] .endInValue
  | b :: rest =>
    if b = 't'.toUInt8 then (readWord ['r', 'u', 'e'] rest).map (.bool true, ·)
    else if b = 'f'.toUInt8 then (readWord ['a', 'l', 's', 'e'] rest).map (.bool false, ·)
    else wrongType "a boolean" (b :: rest)

/-- Reads null. -/
def readUnit (bs : Bytes) : Except Fault (Json × Bytes) :=
  match skipBlank bs with
  | [] => faultPast [] .endInValue
  | b :: rest =>
    if b = 'n'.toUInt8 then (readWord ['u', 'l', 'l'] rest).map (.null, ·)
    else wrongType "unit" (b :: rest)

/-- Reads one of the names of a choice. -/
def readVariant (variants : List String) (bs : Bytes) : Except Fault (Json × Bytes) := do
  let (s, rest) ← readText "variant identifier" bs
  if s ∈ variants then return (.string s, rest)
  else faultAt rest (.unknownVariant s variants)

/-- Reads a choice: a name, or an object that holds null under the name. -/
def readChoice (room : Nat) (variants : List String) (bs : Bytes) : Except Fault (Json × Bytes) :=
  match skipBlank bs with
  | [] => faultPast [] .endInValue
  | b :: rest =>
    if b = '"'.toUInt8 then readVariant variants (b :: rest)
    else if b = '\x7b'.toUInt8 then
      enter room (b :: rest) fun _ => do
        let (v, rest) ← readVariant variants rest
        let rest ← readColon rest
        let (_, rest) ← readUnit rest
        match skipBlank rest with
        | [] => faultAt [] .endInObject
        | c :: more =>
          if c = '\x7d'.toUInt8 then return (v, more) else faultAt (c :: more) .expectedValue
    else faultPast (b :: rest) .expectedValue

/-- The fault of a record at its key before `bs`: it is placed at the next token, or past the end of
the record if that is the next token. -/
def faultInRecord {α : Type} (bs : Bytes) (r : Reason) : Except Fault α :=
  match skipBlank bs with
  | [] => faultAt [] r
  | b :: rest => if b = '\x7d'.toUInt8 then faultAt rest r else faultAt (b :: rest) r

mutual

/-- Reads a datum of a shape. -/
def readAs : Nat → Nat → Shape → Bytes → Except Fault (Json × Bytes)
  | 0, _, _, _ => faultAt [] .endInValue
  | fuel + 1, room, shape, bs =>
    match shape with
    | .any => readValue fuel room bs
    | .unit => readUnit bs
    | .text => (readText "a string" bs).map fun r => (.string r.1, r.2)
    | .bool => readBool bs
    | .integer k => readInteger k bs
    | .float => readFloat bs
    | .choice variants => readChoice room variants bs
    | .optional s =>
      match skipBlank bs with
      | [] => readAs fuel room s.core []
      | b :: rest =>
        if b = 'n'.toUInt8 then (readWord ['u', 'l', 'l'] rest).map (.null, ·)
        else readAs fuel room s.core (b :: rest)
    | .list s =>
      match skipBlank bs with
      | [] => faultPast [] .endInValue
      | b :: rest =>
        if b = '['.toUInt8 then
          enter room (b :: rest) fun room =>
            (readItemsAs fuel room s true rest).map fun r => (.array r.1, r.2)
        else wrongType "a sequence" (b :: rest)
    | .record name fields =>
      match skipBlank bs with
      | [] => faultPast [] .endInValue
      | b :: rest =>
        if b = '['.toUInt8 then
          enter room (b :: rest) fun room => do
            let (vs, rest) ← readPositions fuel room name fields 0 fields rest
            return (.object vs, ← closeList rest)
        else if b = '\x7b'.toUInt8 then
          enter room (b :: rest) fun room => do
            let (found, rest) ← readRecord fuel room fields true [] rest
            match RecordField.collect found fields with
            | .ok vs => return (.object vs, rest)
            | .error f => faultAt rest (.missingField f)
        else wrongType ("struct " ++ name) (b :: rest)

/-- Reads the items of a list, all of one shape, and its end. -/
def readItemsAs : Nat → Nat → Shape → Bool → Bytes → Except Fault (List Json × Bytes)
  | 0, _, _, _, _ => faultAt [] .endInList
  | fuel + 1, room, shape, first, bs => do
    match ← nextItem first bs with
    | .closed rest => return ([], rest)
    | .item rest =>
      let (v, rest) ← readAs fuel room shape rest
      let (vs, rest) ← readItemsAs fuel room shape false rest
      return (v :: vs, rest)

/-- Reads the fields of a record by position, as far as the list goes. Where it ends early the
fields that are left take their fallbacks; its end is left to be read. -/
def readPositions : Nat → Nat → String → List (RecordField Shape) → Nat →
    List (RecordField Shape) → Bytes → Except Fault (List (String × Json) × Bytes)
  | 0, _, _, _, _, _, _ => faultAt [] .endInList
  | _ + 1, _, _, _, _, [], bs => .ok ([], bs)
  | fuel + 1, room, name, all, i, f :: fs, bs => do
    match ← nextItem (i == 0) bs with
    | .closed rest =>
      match f.fallback with
      | some v =>
        let (vs, rest) ← readPositions fuel room name all (i + 1) fs (']'.toUInt8 :: rest)
        return ((f.name, v) :: vs, rest)
      | none => faultAt rest (.invalidLength i name all.length)
    | .item rest =>
      let (v, rest) ← readAs fuel room f.shape rest
      let (vs, rest) ← readPositions fuel room name all (i + 1) fs rest
      return ((f.name, v) :: vs, rest)

/-- Reads the fields of a record by name, after those already found, and its end. -/
def readRecord : Nat → Nat → List (RecordField Shape) → Bool → List (String × Json) → Bytes →
    Except Fault (List (String × Json) × Bytes)
  | 0, _, _, _, _, _ => faultAt [] .endInObject
  | fuel + 1, room, fields, first, found, bs => do
    match ← nextKey first bs with
    | .closed rest => return (found, rest)
    | .item rest =>
      let (k, rest) ← readString rest
      match RecordField.find? k fields with
      | some f =>
        if found.any fun e => e.1 == k then faultInRecord rest (.duplicateField k)
        else
          let rest ← readColon rest
          let (v, rest) ← readAs fuel room f.shape rest
          readRecord fuel room fields false ((k, v) :: found) rest
      | none =>
        let rest ← readColon rest
        let rest ← skipValue rest
        readRecord fuel room fields false found rest

end

/-- The octets of a text that is exhausted. -/
def expectEnd (bs : Bytes) : Except Fault Unit :=
  match skipBlank bs with
  | [] => .ok ()
  | b :: rest => faultPast (b :: rest) .trailingCharacters

/-- Reads the text of a datum of a shape. -/
def parseAs (shape : Shape) (text : Bytes) : Except Fault Json := do
  let (v, rest) ← readAs (3 * text.length + 3) depthLimit shape text
  expectEnd rest
  return v

/-- Reads the text of a value. -/
def parse (text : Bytes) : Except Fault Json := do
  let (v, rest) ← readValue (text.length + 1) depthLimit text
  expectEnd rest
  return v

end RestDispatch.Json
