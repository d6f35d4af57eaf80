import RestDispatch.Yaml.Scalar

/-!
# Lexing YAML texts

`tokenize` divides the characters of a YAML text into tokens. A key before a colon is seen to be one
only when the colon comes, so the lexer remembers where a key could begin and puts the token for it
there afterwards. Such a key stands on one line, in at most 1024 characters.
-/

namespace RestDispatch.Yaml

/-- A place where a key without an indicator could begin. -/
structure SimpleKey where
  possible : Bool
  /-- Whether nothing but a key can begin there. -/
  required : Bool
  /-- The number of tokens before it. -/
  number : Nat
  line : Nat
  column : Nat
  index : Nat

/-- No key. -/
def SimpleKey.none : SimpleKey := ⟨false, false, 0, 0, 0, 0⟩

/-- How far a text has been divided. -/
structure Lexer where
  place : Place
  /-- The tokens so far, the last first. -/
  tokens : List Token
  /-- The column of the innermost block, -1 outside any. -/
  indent : Int
  /-- The columns of the blocks around it. -/
  outer : List Int
  /-- Whether a key may begin here. -/
  keyAllowed : Bool
  /-- The possible key of the innermost flow collection, and those around it. -/
  keys : List SimpleKey

namespace Lexer

/-- The state at the start of a text. -/
def start (cs : List Char) : Lexer := ⟨.start cs, [], -1, [], true, [SimpleKey.none]⟩

/-- Whether the place is inside a flow collection. -/
def inFlow (l : Lexer) : Bool := 1 < l.keys.length

/-- The column of the place. -/
def column (l : Lexer) : Int := l.place.column

/-- Adds a token. -/
def push (l : Lexer) (t : Token) : Lexer := { l with tokens := t :: l.tokens }

/-- Adds a token, and goes on to a place. -/
def pushAt (l : Lexer) (t : Token) (p : Place) : Lexer :=
  { l with tokens := t :: l.tokens, place := p }

/-- Adds a token behind the first `number` tokens. -/
def insertAt (l : Lexer) (number : Nat) (t : Token) : Lexer :=
  { l with tokens := l.tokens.insertIdx (l.tokens.length - number) t }

/-- The possible key of the innermost flow collection. -/
def topKey (l : Lexer) : SimpleKey := l.keys.headD SimpleKey.none

/-- Replaces the possible key of the innermost flow collection. -/
def setKey (l : Lexer) (k : SimpleKey) : Lexer := { l with keys := k :: l.keys.drop 1 }

/-- Gives up the possible key; one that is required is a fault. -/
def dropKey (l : Lexer) : Option Lexer :=
  let k := l.topKey
  if k.possible && k.required then none else some (l.setKey { k with possible := false })

/-- Remembers that a key could begin here. -/
def saveKey (l : Lexer) : Option Lexer :=
  if l.keyAllowed then do
    let l' ← l.dropKey
    let required := !l.inFlow && l.indent == l.column
    return l'.setKey ⟨true, required, l.tokens.length, l.place.line, l.place.column, l.place.index⟩
  else some l

/-- Gives up the keys that would not end on their line or within 1024 characters. -/
def expireKeys (l : Lexer) : Option Lexer :=
  let expired := fun (k : SimpleKey) =>
    k.possible && (k.line < l.place.line || k.index + 1024 < l.place.index)
  if l.keys.any fun k => expired k && k.required then none
  else
    some { l with
      keys := l.keys.map fun k => if expired k then { k with possible := false } else k }

/-- Opens a block at a column to the right of the innermost one; the token for it goes behind the
first `number` tokens. -/
def openBlock (l : Lexer) (column : Int) (number : Nat) (t : Token) : Lexer :=
  if !l.inFlow && l.indent < column then
    { l.insertAt number t with indent := column, outer := l.indent :: l.outer }
  else l

/-- Closes blocks to the right of a column. -/
def closeBlocks (l : Lexer) (column : Int) : Lexer :=
  if l.inFlow then l else go l.outer l
where
  /-- Closes blocks, of which `outer` are around the innermost. -/
  go : List Int → Lexer → Lexer
    | [], l => if column < l.indent then { l.push .blockEnd with indent := -1 } else l
    | o :: os, l =>
      if column < l.indent then go os { l.push .blockEnd with indent := o, outer := os } else l

/-- Closes every block, gives up the possible key and admits no key. -/
def closeAll (l : Lexer) : Option Lexer := do
  let l ← (l.closeBlocks (-1)).dropKey
  return { l with keyAllowed := false }

/-- Passes over blanks, comments and line breaks before a token. A tab does not indent a block. -/
def skipToToken : Nat → Lexer → Lexer
  | 0, l => l
  | fuel + 1, l =>
    let tabs := l.inFlow || !l.keyAllowed
    let p := (l.place.skipWhile fun c => c == ' ' || (tabs && c == '\t')).skipComment
    if atBreak p.rest then
      skipToToken fuel { l with place := p.skipBreak, keyAllowed := l.keyAllowed || !l.inFlow }
    else { l with place := p }

/-! ### Directives, anchors and tags -/

/-- Reads a number of at most nine digits. -/
def readVersionNumber (p : Place) : Option (Nat × Place) :=
  let ds := p.rest.takeWhile Char.isDigit
  if ds = [] ∨ 9 < ds.length then none
  else some (ds.foldl (fun n c => 10 * n + (c.toNat - '0'.toNat)) 0, p.skip ds.length)

/-- A character that a tag can hold without an escape. -/
def isTagChar (uri : Bool) (c : Char) : Bool :=
  isWordChar c || ";/?:@&=+$.!~*\x27()".toList.contains c || (uri && [',', '[', ']'].contains c)

/-- Reads an octet that is written by two hexadecimal digits. -/
def readTagOctet : List Char → Option (UInt8 × List Char)
  | '%' :: a :: b :: rest => do
    let n ← readHexDigits 0 2 [a, b]
    return (n.toUInt8, rest)
  | _ => none

/-- Reads the octets of one character. -/
def readTagOctets : Nat → List Char → Option (Bytes × List Char)
  | 0, cs => some ([], cs)
  | n + 1, cs => do
    let (b, rest) ← readTagOctet cs
    let (bs, rest) ← readTagOctets n rest
    return (b :: bs, rest)

/-- Reads an escaped character of a tag. -/
def readTagEscape (cs : List Char) : Option (List Char × List Char) := do
  let (a, _) ← readTagOctet cs
  let width := if a < 0x80 then 1 else if 0xC0 ≤ a && a < 0xE0 then 2
    else if 0xE0 ≤ a && a < 0xF0 then 3 else if 0xF0 ≤ a && a < 0xF8 then 4 else 0
  if width = 0 then none
  else
    let (bs, rest) ← readTagOctets width cs
    let text ← (Utf8.decodeFrom 0 bs).toOption
    return (text, rest)

/-- Reads the characters of a tag. -/
def readTagText (uri : Bool) : Nat → List Char → Option (List Char × List Char)
  | 0, cs => some ([], cs)
  | fuel + 1, cs =>
    match cs with
    | [] => some ([], [])
    | c :: rest =>
      if c = '%' then do
        let (text, rest) ← readTagEscape cs
        let (more, rest) ← readTagText uri fuel rest
        return (text ++ more, rest)
      else if isTagChar uri c then (readTagText uri fuel rest).map fun r => (c :: r.1, r.2)
      else some ([], cs)

/-- Reads the characters of a tag at a place; nothing may be read only where `empty` admits it. -/
def readTagUri (uri empty : Bool) (p : Place) : Option (String × Place) := do
  let (text, rest) ← readTagText uri (p.rest.length + 1) p.rest
  let n := p.rest.length - rest.length
  if n = 0 ∧ !empty then none else return (String.ofList text, p.skip n)

/-- Reads an exclamation mark, the word after it and an exclamation mark that ends it. -/
def readHandle (p : Place) : Option (String × Place) :=
  match p.rest with
  | '!' :: rest =>
    let word := rest.takeWhile isWordChar
    let closed := (rest.drop word.length).head? = some '!'
    let text := '!' :: word ++ (if closed then ['!'] else [])
    some (String.ofList text, p.skip text.length)
  | _ => none

/-- Whether a text is the handle of a tag, and not the beginning of a tag without one. -/
def isHandle (s : String) : Bool := 1 < s.length && s.toList.getLast? == some '!'

/-- Reads the directive of a given name after the name. -/
def readDirectiveValue (name : String) (p : Place) : Option (Token × Place) := do
  let p := p.skipWhile isBlankChar
  match name with
  | "YAML" =>
    let (major, p) ← readVersionNumber p
    if p.rest.head? = some '.' then
      let (minor, p) ← readVersionNumber (p.skip 1)
      return (.versionDirective major minor, p)
    else none
  | "TAG" =>
    let (handle, p) ← readHandle p
    if !(isHandle handle || handle == "!") || !atBlank p.rest then none
    else
      let (lead, p) ← readTagUri true false (p.skipWhile isBlankChar)
      if atSpaceOrEnd p.rest then return (.tagDirective handle lead, p) else none
  | _ => none

/-- Reads a directive and the line that it stands on. -/
def readDirective (p : Place) : Option (Token × Place) := do
  let p := p.skip 1
  let name := p.rest.takeWhile isWordChar
  let p := p.skip name.length
  if name = [] ∨ !atSpaceOrEnd p.rest then none
  else
    let (t, p) ← readDirectiveValue (String.ofList name) p
    let p := (p.skipWhile isBlankChar).skipComment
    if atBreakOrEnd p.rest then return (t, p.skipBreak) else none

/-- Reads the name of an anchor or an alias after its indicator. -/
def readAnchorName (p : Place) : Option (String × Place) :=
  let p := p.skip 1
  let name := p.rest.takeWhile isWordChar
  let p := p.skip name.length
  if name = [] then none
  else if atSpaceOrEnd p.rest || atAny ['?', ':', ',', ']', '\x7d', '%', '@', '\x60'] p.rest then
    some (String.ofList name, p)
  else none

/-- Reads a tag up to its end. -/
def readTagBody (p : Place) : Option (Token × Place) := do
  if p.rest.drop 1 |>.head? |> (· = some '<') then
    let (suffix, q) ← readTagUri true false (p.skip 2)
    if q.rest.head? = some '>' then return (.tag "" suffix, q.skip 1) else none
  else
    let (handle, q) ← readHandle p
    if isHandle handle then
      let (suffix, q) ← readTagUri false false q
      return (.tag handle suffix, q)
    else
      let (more, q) ← readTagUri false true q
      let suffix := String.ofList (handle.toList.drop 1) ++ more
      return (if suffix = "" then .tag "" "!" else .tag "!" suffix, q)

/-- Reads a tag. -/
def readTag (flow : Bool) (p : Place) : Option (Token × Place) := do
  let (t, q) ← readTagBody p
  if atSpaceOrEnd q.rest || (flow && q.rest.head? == some ',') then return (t, q) else none

/-! ### Tokens -/

/-- Opens a flow collection. -/
def openFlow (l : Lexer) (t : Token) : Option Lexer := do
  let l ← l.saveKey
  return { l.pushAt t (l.place.skip 1) with keys := SimpleKey.none :: l.keys, keyAllowed := true }

/-- Closes a flow collection. -/
def closeFlow (l : Lexer) (t : Token) : Option Lexer := do
  let l ← l.dropKey
  let keys := if l.inFlow then l.keys.drop 1 else l.keys
  return { l.pushAt t (l.place.skip 1) with keys := keys, keyAllowed := false }

/-- Takes a comma of a flow collection. -/
def takeFlowEntry (l : Lexer) : Option Lexer := do
  let l ← l.dropKey
  return { l.pushAt .flowEntry (l.place.skip 1) with keyAllowed := true }

/-- Takes the dash of an entry of a block sequence. -/
def takeBlockEntry (l : Lexer) : Option Lexer := do
  if !l.inFlow && !l.keyAllowed then none
  else
    let l ← (l.openBlock l.column l.tokens.length .blockSequenceStart).dropKey
    return { l.pushAt .blockEntry (l.place.skip 1) with keyAllowed := true }

/-- Takes the question mark of a key. -/
def takeKey (l : Lexer) : Option Lexer := do
  if !l.inFlow && !l.keyAllowed then none
  else
    let l ← (l.openBlock l.column l.tokens.length .blockMappingStart).dropKey
    return { l.pushAt .key (l.place.skip 1) with keyAllowed := !l.inFlow }

/-- Takes the colon of a value. If a key could begin before it, there is the key. -/
def takeValue (l : Lexer) : Option Lexer := do
  let k := l.topKey
  if k.possible then
    let l := (l.insertAt k.number .key).openBlock k.column k.number .blockMappingStart
    let l := l.setKey { k with possible := false }
    return { l.pushAt .value (l.place.skip 1) with keyAllowed := false }
  else if !l.inFlow && !l.keyAllowed then none
  else
    let l := l.openBlock l.column l.tokens.length .blockMappingStart
    return { l.pushAt .value (l.place.skip 1) with keyAllowed := !l.inFlow }

/-- Takes a token before which a key could begin. -/
def takeNode (l : Lexer) (read : Place → Option (Token × Place)) : Option Lexer := do
  let l ← l.saveKey
  let (t, p) ← read l.place
  return { l.pushAt t p with keyAllowed := false }

/-- Takes a block scalar. -/
def takeBlock (l : Lexer) (folded : Bool) : Option Lexer := do
  let l ← l.dropKey
  let (text, p) ← readBlock folded l.indent (l.place.skip 1)
  let t := Token.scalar (String.ofList text) (if folded then .folded else .literal)
  return { l.pushAt t p with keyAllowed := true }

/-- Reads a quoted scalar. -/
def readQuotedToken (single : Bool) (p : Place) : Option (Token × Place) := do
  let (text, q) ← readQuoted single (p.rest.length + 1) (p.skip 1)
  return (.scalar (String.ofList text) (if single then .singleQuoted else .doubleQuoted), q)

/-- Takes a plain scalar. A key may begin on the line after it. -/
def takePlain (l : Lexer) : Option Lexer := do
  let l ← l.saveKey
  let (text, p, broken) ←
    readPlain l.inFlow (l.indent + 1).toNat (l.place.rest.length + 1) Gap.none l.place
  return { l.pushAt (.scalar (String.ofList text) .plain) p with keyAllowed := broken }

/-- The characters that a plain scalar does not begin with. -/
def indicators : List Char :=
  ['-', '?', ':', ',', '[', ']', '\x7b', '\x7d', '#', '&', '*', '!', '|', '>', '\x27', '"', '%',
    '@', '\x60']

/-- Whether a plain scalar begins with `c` before `rest`. -/
def startsPlain (flow : Bool) (c : Char) (rest : List Char) : Bool :=
  !(isBlankChar c || isBreakChar c || indicators.contains c) || (c == '-' && !atBlank rest) ||
    (!flow && (c == '?' || c == ':') && !atSpaceOrEnd rest)

/-- Takes the token that begins with `c` before `rest`. -/
def takeToken (l : Lexer) (c : Char) (rest : List Char) : Option Lexer :=
  let flow := l.inFlow
  if l.place.column = 0 ∧ c = '%' then do
    let l ← l.closeAll
    let (t, p) ← readDirective l.place
    return l.pushAt t p
  else if l.place.column = 0 ∧ atDocumentMark (c :: rest) then do
    let l ← l.closeAll
    return l.pushAt (if c = '-' then .documentStart else .documentEnd) (l.place.skip 3)
  else if c = '[' then l.openFlow .flowSequenceStart
  else if c = '\x7b' then l.openFlow .flowMappingStart
  else if c = ']' then l.closeFlow .flowSequenceEnd
  else if c = '\x7d' then l.closeFlow .flowMappingEnd
  else if c = ',' then l.takeFlowEntry
  else if c = '-' ∧ atSpaceOrEnd rest then l.takeBlockEntry
  else if c = '?' ∧ (flow ∨ atSpaceOrEnd rest) then l.takeKey
  else if c = ':' ∧ (flow ∨ atSpaceOrEnd rest) then l.takeValue
  else if c = '*' then l.takeNode fun p => (readAnchorName p).map fun r => (.alias r.1, r.2)
  else if c = '&' then l.takeNode fun p => (readAnchorName p).map fun r => (.anchor r.1, r.2)
  else if c = '!' then l.takeNode (readTag flow)
  else if c = '|' ∧ !flow then l.takeBlock false
  else if c = '>' ∧ !flow then l.takeBlock true
  else if c = '\x27' then l.takeNode (readQuotedToken true)
  else if c = '"' then l.takeNode (readQuotedToken false)
  else if startsPlain flow c rest then l.takePlain
  else none

/-- Takes tokens up to the end of the text. -/
def run : Nat → Lexer → Option (List Token)
  | 0, _ => none
  | fuel + 1, l => do
    let l ← (skipToToken (l.place.rest.length + 1) l).expireKeys
    let l := l.closeBlocks l.column
    match l.place.rest with
    | [] =>
      let l ← l.closeAll
      return l.tokens.reverse
    | c :: rest => l.takeToken c rest >>= run fuel

end Lexer

/-- The tokens of a YAML text. -/
def tokenize (cs : List Char) : Option (List Token) := Lexer.run (cs.length + 2) (.start cs)

end RestDispatch.Yaml
