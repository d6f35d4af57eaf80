import RestDispatch.Xml.Tag

/-!
# XML documents

The elements of a document and the text between them. Comments and processing instructions are
passed over. A document that is malformed at some place has the nodes that end before it; tags have
to match, but names, attributes and references are not looked into.
-/

namespace RestDispatch.Xml

/-- A node of a document. -/
inductive Node
  /-- An element: its name, the octets of its attributes, whether it says that it is null, and what
  it contains. -/
  | element (name attributes : Bytes) (null : Bool) (content : List Node)
  /-- Pieces of text between two tags. -/
  | text (pieces : List Piece)

/-- What ends a list of nodes. -/
inductive Ending
  /-- The end of the document. -/
  | done
  /-- A place where it is malformed. -/
  | broken
  /-- An end tag, and what follows it. -/
  | closed (name rest : Bytes)

/-- What stands at the head of a document or after a node. -/
inductive Mark
  | openTag (name attributes : Bytes) (empty : Bool) (rest : Bytes)
  | closeTag (name rest : Bytes)
  | piece (p : Piece) (rest : Bytes)
  /-- A document type, which ends the text before it. -/
  | doctype (rest : Bytes)
  | skipped (rest : Bytes)
  | broken

/-- A tag up to its end, a mark in quotes being none. -/
def takeTag : Option UInt8 → Bytes → Option (Bytes × Bytes)
  | _, [] => none
  | some q, b :: bs => (takeTag (if b = q then none else some q) bs).map fun r => (b :: r.1, r.2)
  | none, b :: bs =>
    if b = '>'.toUInt8 then some ([], bs)
    else
      let quote := if b = '"'.toUInt8 ∨ b = '\x27'.toUInt8 then some b else none
      (takeTag quote bs).map fun r => (b :: r.1, r.2)

/-- A document type up to its end, inside `depth` marks that have been opened. -/
def takeDoctype : Nat → Bytes → Option (Bytes × Bytes)
  | _, [] => none
  | depth, b :: bs =>
    let next := fun depth => (takeDoctype depth bs).map fun r => (b :: r.1, r.2)
    if b = '<'.toUInt8 then next (depth + 1)
    else if b = '>'.toUInt8 then
      match depth with
      | 0 => some ([], bs)
      | depth + 1 => next depth
    else next depth

/-- Octets without the spaces at their end. -/
def trimEnd (bs : Bytes) : Bytes := (bs.reverse.dropWhile isSpace).reverse

/-- The mark that an opening tag is. -/
def openMark (bs rest : Bytes) : Mark :=
  let empty := bs.getLast? = some '/'.toUInt8
  let bs := if empty then bs.dropLast else bs
  let name := bs.takeWhile fun b => !isSpace b
  .openTag name (bs.drop name.length) empty rest

/-- The mark after an angle bracket and an exclamation mark. -/
def declarationMark (bs : Bytes) : Mark :=
  if (word "--").isPrefixOf bs then
    match takeUntil (word "-->") (bs.drop 2) with
    | some (_, rest) => .skipped rest
    | none => .broken
  else if (word "[CDATA[").isPrefixOf bs then
    match takeUntil (word "]]>") (bs.drop 7) with
    | some (text, rest) => .piece (.verbatim text) rest
    | none => .broken
  else
    match takeDoctype 0 bs with
    | some (text, rest) =>
      let head := text.take 7
      if head.map (fun b => (Char.ofNat b.toNat).toUpper) = "DOCTYPE".toList ∧
          (text.drop 7).any (fun b => !isSpace b) then .doctype rest
      else .broken
    | none => .broken

/-- The mark after an angle bracket. -/
def bracketMark : Bytes → Mark
  | [] => .broken
  | b :: bs =>
    if b = '!'.toUInt8 then declarationMark bs
    else if b = '/'.toUInt8 then
      match takeTag none bs with
      | some (name, rest) => .closeTag (trimEnd name) rest
      | none => .broken
    else if b = '?'.toUInt8 then
      match takeUntil (word "?>") bs with
      | some (_, rest) => if bs.head? = some '>'.toUInt8 then .broken else .skipped rest
      | none => .broken
    else
      match takeTag none (b :: bs) with
      | some (tag, rest) => openMark tag rest
      | none => .broken

/-- The mark that begins with the octet `b`. -/
def readMark (b : UInt8) (bs : Bytes) : Mark :=
  if b = '<'.toUInt8 then bracketMark bs
  else if b = '&'.toUInt8 then
    let name := bs.takeWhile fun c => c != ';'.toUInt8 && c != '&'.toUInt8 && c != '<'.toUInt8
    match bs.drop name.length with
    | c :: rest => if c = ';'.toUInt8 then .piece (.reference name) rest else .broken
    | [] => .broken
  else
    let text := (b :: bs).takeWhile fun c => c != '<'.toUInt8 && c != '&'.toUInt8
    .piece (.text text) ((b :: bs).drop text.length)

/-- Puts a piece before a list of nodes; it joins the text at its head. -/
def consPiece (p : Piece) : List Node → List Node
  | .text ps :: ns => .text (p :: ps) :: ns
  | ns => .text [p] :: ns

/-- Whether a node is more than a mark that separates pieces of text. -/
def Node.isWritten : Node → Bool
  | .text [] => false
  | _ => true

/-- Reads nodes up to an end tag or the end of the document; `fuel` exceeds the number of octets. -/
def readNodes (scope : Scope) : Nat → Bytes → List Node × Ending
  | 0, _ => ([], .broken)
  | _ + 1, [] => ([], .done)
  | fuel + 1, b :: bs =>
    match readMark b bs with
    | .broken => ([], .broken)
    | .closeTag name rest => ([], .closed name rest)
    | .skipped rest => readNodes scope fuel rest
    | .doctype rest =>
      let r := readNodes scope fuel rest
      match r.1 with
      | .text ps :: ns => (.text [] :: .text ps :: ns, r.2)
      | _ => r
    | .piece p rest =>
      let r := readNodes scope fuel rest
      (consPiece p r.1, r.2)
    | .openTag name attributes empty rest =>
      let written := leadingAttributes attributes
      match scope.extend written with
      | none => ([], .broken)
      | some inner =>
        let node := Node.element name attributes (written.any inner.isNull)
        if empty then
          let r := readNodes scope fuel rest
          (node [] :: r.1, r.2)
        else
          match readNodes inner fuel rest with
          | (content, .closed closing rest) =>
            if closing = name then
              let r := readNodes scope fuel rest
              (node (content.filter Node.isWritten) :: r.1, r.2)
            else ([], .broken)
          | _ => ([], .broken)

/-- A document: its nodes, and whether it is well formed up to its end. -/
def readDocument (text : Bytes) : List Node × Bool :=
  let text := if [0xEF, 0xBB, 0xBF].isPrefixOf text then text.drop 3 else text
  match readNodes [] (text.length + 1) text with
  | (ns, .done) => (ns.filter Node.isWritten, true)
  | (ns, _) => (ns.filter Node.isWritten, false)

end RestDispatch.Xml
