import RestDispatch.Table
import RestDispatch.Yaml.Lexer

/-!
# YAML documents

The tree of a YAML document. `Node.ofTokens?` builds it from the tokens of a text that holds one
document; an anchor is a number, and an alias has the number that its name had when it was read. A
name that is anchored again takes the count of names so far, so that an alias means the last node of
its number.
-/

namespace RestDispatch.Yaml

/-- A node of a document. -/
inductive Node
  | void
  | alias (id : Nat)
  | scalar (anchor : Option Nat) (tag : Option String) (value : String) (style : ScalarStyle)
  | sequence (anchor : Option Nat) (tag : Option String) (items : List Node)
  | mapping (anchor : Option Nat) (tag : Option String) (entries : List (Node × Node))

namespace Node

/-- A plain scalar without characters. -/
def blank : Node := .scalar none none "" .plain

mutual

/-- The number of marks that a node is made of: a collection has one at each end. -/
def size : Node → Nat
  | .void | .alias _ | .scalar .. => 1
  | .sequence _ _ items => 2 + sizeItems items
  | .mapping _ _ entries => 2 + sizeEntries entries

/-- The number of marks of the items of a sequence. -/
def sizeItems : List Node → Nat
  | [] => 0
  | n :: ns => n.size + sizeItems ns

/-- The number of marks of the entries of a mapping. -/
def sizeEntries : List (Node × Node) → Nat
  | [] => 0
  | (k, v) :: es => k.size + v.size + sizeEntries es

end

mutual

/-- The nodes that have an anchor, in the order of the text. -/
def anchored : Node → List (Nat × Node)
  | .void | .alias _ => []
  | .scalar a tag value style => (a.map fun i => (i, Node.scalar a tag value style)).toList
  | .sequence a tag items =>
    (a.map fun i => (i, Node.sequence a tag items)).toList ++ anchoredItems items
  | .mapping a tag entries =>
    (a.map fun i => (i, Node.mapping a tag entries)).toList ++ anchoredEntries entries

/-- The nodes with an anchor among the items of a sequence and in them. -/
def anchoredItems : List Node → List (Nat × Node)
  | [] => []
  | n :: ns => n.anchored ++ anchoredItems ns

/-- The nodes with an anchor among the entries of a mapping and in them. -/
def anchoredEntries : List (Node × Node) → List (Nat × Node)
  | [] => []
  | (k, v) :: es => k.anchored ++ v.anchored ++ anchoredEntries es

end

end Node

/-! ### Building the tree -/

/-- What is left of the tokens of a document, and the numbers of the names anchored so far. -/
structure Builder where
  tokens : List Token
  names : List (String × Nat)

namespace Builder

/-- Whether one of the given tokens comes next. -/
def next (b : Builder) (ts : List Token) : Bool :=
  match b.tokens with
  | t :: _ => ts.contains t
  | [] => false

/-- The state after the next token. -/
def advance (b : Builder) : Builder := { b with tokens := b.tokens.drop 1 }

/-- Gives a name the next number. -/
def bind (b : Builder) (name : String) : Nat × Builder :=
  let id := b.names.length
  (id, { b with names := insertEntry name id b.names })

/-- The tag that a handle and a suffix stand for. -/
def tagOf (handles : List (String × String)) (handle suffix : String) : Option String :=
  if handle = "" then some suffix else (handles.lookup handle).map (· ++ suffix)

/-- Reads an anchor, if one comes next. -/
def readAnchor (b : Builder) : Option Nat × Builder :=
  match b.tokens with
  | .anchor name :: rest =>
    let (id, b) := bind { b with tokens := rest } name
    (some id, b)
  | _ => (none, b)

/-- Reads a tag, if one comes next. -/
def readTag (handles : List (String × String)) (b : Builder) :
    Option (Option String × Builder) :=
  match b.tokens with
  | .tag handle suffix :: rest =>
    (tagOf handles handle suffix).map fun t => (some t, { b with tokens := rest })
  | _ => some (none, b)

/-- Reads the anchor and the tag of a node, in either order. -/
def readProperties (handles : List (String × String)) (b : Builder) :
    Option (Option Nat × Option String × Builder) := do
  let (anchor, b) := b.readAnchor
  let (tag, b) ← b.readTag handles
  match anchor with
  | some _ => return (anchor, tag, b)
  | none =>
    let (anchor, b) := if tag.isSome then b.readAnchor else (none, b)
    return (anchor, tag, b)

/-- Where a node stands: in a block, in a block mapping, where a sequence need not be indented, or
in a flow collection. -/
inductive Context
  | block
  | entry
  | flow
  deriving DecidableEq

mutual

/-- Reads a node; `fuel` exceeds three times the number of tokens. -/
def readNode (handles : List (String × String)) : Nat → Context → Builder →
    Option (Node × Builder)
  | 0, _, _ => none
  | fuel + 1, context, b =>
    match b.tokens with
    | .alias name :: rest =>
      (lookupEntry name b.names).map fun id => (.alias id, { b with tokens := rest })
    | _ => do
      let (anchor, tag, b) ← b.readProperties handles
      let rest := b.advance
      match b.tokens.head? with
      | some (.scalar value style) =>
        return (.scalar anchor (if tag = some "!" then none else tag) value style, rest)
      | some .flowSequenceStart =>
        let (items, b) ← readFlowItems handles fuel true rest
        return (.sequence anchor tag items, b)
      | some .flowMappingStart =>
        let (entries, b) ← readFlowEntries handles fuel true rest
        return (.mapping anchor tag entries, b)
      | t =>
        if context = .entry ∧ t = some .blockEntry then
          let (items, b) ← readLooseItems handles fuel b
          return (.sequence anchor tag items, b)
        else if context ≠ .flow ∧ t = some .blockSequenceStart then
          let (items, b) ← readItems handles fuel rest
          return (.sequence anchor tag items, b)
        else if context ≠ .flow ∧ t = some .blockMappingStart then
          let (entries, b) ← readEntries handles fuel rest
          return (.mapping anchor tag entries, b)
        else if anchor.isSome ∨ tag.isSome then return (.scalar anchor tag "" .plain, b)
        else none

/-- Reads a node that is left out where one of the tokens `stops` comes next. -/
def readOptional (handles : List (String × String)) : Nat → Context → List Token → Builder →
    Option (Node × Builder)
  | 0, _, _, _ => none
  | fuel + 1, context, stops, b =>
    if b.next stops then some (.blank, b) else readNode handles fuel context b

/-- Reads a value after its indicator; without one it is left out. -/
def readValue (handles : List (String × String)) : Nat → Context → List Token → Builder →
    Option (Node × Builder)
  | 0, _, _, _ => none
  | fuel + 1, context, stops, b =>
    if b.next [.value] then readOptional handles fuel context stops b.advance else some (.blank, b)

/-- Reads the items of a block sequence and its end. -/
def readItems (handles : List (String × String)) : Nat → Builder → Option (List Node × Builder)
  | 0, _ => none
  | fuel + 1, b =>
    if b.next [.blockEntry] then do
      let (n, b) ← readOptional handles fuel .block [.blockEntry, .blockEnd] b.advance
      let (ns, b) ← readItems handles fuel b
      return (n :: ns, b)
    else if b.next [.blockEnd] then some ([], b.advance)
    else none

/-- Reads the items of a block sequence that is not indented. -/
def readLooseItems (handles : List (String × String)) : Nat → Builder →
    Option (List Node × Builder)
  | 0, _ => none
  | fuel + 1, b =>
    if b.next [.blockEntry] then do
      let (n, b) ←
        readOptional handles fuel .block [.blockEntry, .key, .value, .blockEnd] b.advance
      let (ns, b) ← readLooseItems handles fuel b
      return (n :: ns, b)
    else some ([], b)

/-- Reads the entries of a block mapping and its end. -/
def readEntries (handles : List (String × String)) : Nat → Builder →
    Option (List (Node × Node) × Builder)
  | 0, _ => none
  | fuel + 1, b =>
    if b.next [.key] then do
      let stops := [.key, .value, .blockEnd]
      let (k, b) ← readOptional handles fuel .entry stops b.advance
      let (v, b) ← readValue handles fuel .entry stops b
      let (es, b) ← readEntries handles fuel b
      return ((k, v) :: es, b)
    else if b.next [.blockEnd] then some ([], b.advance)
    else none

/-- Reads the items of a flow sequence and its end. A pair by itself is a mapping of one entry. -/
def readFlowItems (handles : List (String × String)) : Nat → Bool → Builder →
    Option (List Node × Builder)
  | 0, _, _ => none
  | fuel + 1, first, b =>
    if b.next [.flowSequenceEnd] then some ([], b.advance)
    else if !first && !b.next [.flowEntry] then none
    else
      let b := if first then b else b.advance
      if b.next [.flowSequenceEnd] then some ([], b.advance)
      else do
        let (n, b) ←
          if b.next [.key] then readPair handles fuel b.advance else readNode handles fuel .flow b
        let (ns, b) ← readFlowItems handles fuel false b
        return (n :: ns, b)

/-- Reads a pair in a flow sequence after the indicator of its key. An indicator in the place of the
key is passed over. -/
def readPair (handles : List (String × String)) : Nat → Builder → Option (Node × Builder)
  | 0, _ => none
  | fuel + 1, b => do
    let (k, b) ←
      if b.next [.value, .flowEntry, .flowSequenceEnd] then some (.blank, b.advance)
      else readNode handles fuel .flow b
    let (v, b) ← readValue handles fuel .flow [.flowEntry, .flowSequenceEnd] b
    return (.mapping none none [(k, v)], b)

/-- Reads the entries of a flow mapping and its end. -/
def readFlowEntries (handles : List (String × String)) : Nat → Bool → Builder →
    Option (List (Node × Node) × Builder)
  | 0, _, _ => none
  | fuel + 1, first, b =>
    if b.next [.flowMappingEnd] then some ([], b.advance)
    else if !first && !b.next [.flowEntry] then none
    else
      let b := if first then b else b.advance
      let stops := [.flowEntry, .flowMappingEnd]
      if b.next [.flowMappingEnd] then some ([], b.advance)
      else do
        let (e, b) ←
          if b.next [.key] then do
            let (k, b) ← readOptional handles fuel .flow (.value :: stops) b.advance
            let (v, b) ← readValue handles fuel .flow stops b
            some ((k, v), b)
          else do
            let (k, b) ← readNode handles fuel .flow b
            some ((k, .blank), b)
        let (es, b) ← readFlowEntries handles fuel false b
        return (e :: es, b)

end

/-- The handles that every document has. -/
def commonHandles : List (String × String) := [("!", "!"), ("!!", "tag:yaml.org,2002:")]

/-- Reads directives: the handles that they define, and what follows. At most one gives the version,
which is 1.1 or 1.2, and none defines a handle again. -/
def readDirectives : Bool → List (String × String) → List Token →
    Option (List (String × String) × List Token)
  | versioned, handles, .versionDirective major minor :: rest =>
    if versioned ∨ major ≠ 1 ∨ (minor ≠ 1 ∧ minor ≠ 2) then none
    else readDirectives true handles rest
  | versioned, handles, .tagDirective handle lead :: rest =>
    if (handles.lookup handle).isSome then none
    else readDirectives versioned (handles ++ [(handle, lead)]) rest
  | _, handles, ts => some (handles, ts)

/-- Whether a token stands outside the content of a document. -/
def isOutside : Token → Bool
  | .versionDirective .. | .tagDirective .. | .documentStart | .documentEnd => true
  | _ => false

/-- Reads the content of a document. -/
def readContent (handles : List (String × String)) (ts : List Token) : Option (Node × Builder) :=
  readNode (handles ++ commonHandles) (3 * ts.length + 3) .block ⟨ts, []⟩

/-- Reads a document, and the tokens after it. -/
def readDocument (ts : List Token) : Option (Node × List Token) :=
  match ts with
  | [] => some (.void, [])
  | t :: _ =>
    if isOutside t && t != .documentEnd then do
      let (handles, ts) ← readDirectives false [] ts
      match ts with
      | .documentStart :: ts =>
        if (ts.head?.map isOutside).getD true then some (.blank, ts)
        else (readContent handles ts).map fun r => (r.1, r.2.tokens)
      | _ => none
    else (readContent [] ts).map fun r => (r.1, r.2.tokens)

end Builder

/-- The document that a text consists of, from its tokens. -/
def Node.ofTokens? (ts : List Token) : Option Node := do
  let (n, rest) ← Builder.readDocument ts
  if rest.all (· == .documentEnd) then some n else none

/-- The document that a text consists of. -/
def Node.ofText? (text : Bytes) : Option Node := decode text >>= tokenize >>= Node.ofTokens?

end RestDispatch.Yaml
