import RestDispatch.Yaml.Token
import RestDispatch.Json.Token

/-!
# Scalars of YAML texts

The five ways to write a scalar. Line breaks inside a scalar are folded: a single one is a space,
and of several the first is dropped, except in a literal scalar, which keeps its lines. Each reader
gives the value and the place after the scalar, or nothing for a scalar that is malformed.
-/

namespace RestDispatch.Yaml

/-- The blanks and line breaks between two parts of a scalar. -/
structure Gap where
  /-- Blanks on the line of the first part. -/
  blanks : List Char
  /-- The first line break. -/
  first : List Char
  /-- The line breaks after the first. -/
  more : List Char
  /-- Whether a line has ended. -/
  broken : Bool

/-- No gap. -/
def Gap.none : Gap := ⟨[], [], [], false⟩

/-- The text that stands for a gap. -/
def Gap.fold (g : Gap) : List Char :=
  if g.broken then
    if g.first = ['\n'] then if g.more = [] then [' '] else g.more
    else g.first ++ g.more
  else g.blanks

/-- Passes over blanks and line breaks; a tab before column `indent` of a new line is refused. -/
def readGap (indent : Nat) : Nat → Gap → Place → Option (Gap × Place)
  | 0, g, p => some (g, p)
  | fuel + 1, g, p =>
    match p.rest with
    | [] => some (g, p)
    | c :: _ =>
      if isBlankChar c then
        if g.broken then
          if c = '\t' ∧ p.column < indent then Option.none else readGap indent fuel g (p.skip 1)
        else readGap indent fuel { g with blanks := g.blanks ++ [c] } (p.skip 1)
      else if isBreakChar c then
        if g.broken then
          readGap indent fuel { g with more := g.more ++ p.breakText } p.skipBreak
        else readGap indent fuel ⟨[], p.breakText, g.more, true⟩ p.skipBreak
      else some (g, p)

/-! ### Plain scalars -/

/-- Reads the characters of a plain scalar up to a blank or an indicator. -/
def readPlainRun (flow : Bool) : Nat → Place → Option (List Char × Place)
  | 0, p => some ([], p)
  | fuel + 1, p =>
    match p.rest with
    | [] => some ([], p)
    | c :: rest =>
      if isBlankChar c || isBreakChar c then some ([], p)
      else if flow && c == ':' && atAny [',', '?', '[', ']', '\x7b', '\x7d'] rest then none
      else if c == ':' && atSpaceOrEnd rest then some ([], p)
      else if flow && [',', '[', ']', '\x7b', '\x7d'].contains c then some ([], p)
      else (readPlainRun flow fuel (p.skip 1)).map fun r => (c :: r.1, r.2)

/-- Reads a plain scalar after the gap `g`, which belongs to it only if more of it follows. The
result is its text, the place after it and whether a line has ended since. -/
def readPlain (flow : Bool) (indent : Nat) : Nat → Gap → Place → Option (List Char × Place × Bool)
  | 0, g, p => some ([], p, g.broken)
  | fuel + 1, g, p =>
    if (p.column = 0 ∧ atDocumentMark p.rest) ∨ p.rest.head? = some '#' then
      some ([], p, g.broken)
    else
      match readPlainRun flow (p.rest.length + 1) p with
      | none => none
      | some (run, q) =>
        let lead := if run = [] then [] else g.fold ++ run
        let g := if run = [] then g else Gap.none
        if atBlank q.rest || atBreak q.rest then
          match readGap indent (q.rest.length + 1) g q with
          | none => none
          | some (g, q) =>
            if !flow && q.column < indent then some (lead, q, g.broken)
            else (readPlain flow indent fuel g q).map fun r => (lead ++ r.1, r.2)
        else some (lead, q, g.broken)

/-! ### Quoted scalars -/

/-- The characters that escapes of one letter stand for. -/
def escapes : List (Char × Char) :=
  [('0', Char.ofNat 0), ('a', '\x07'), ('b', '\x08'), ('t', '\t'), ('\t', '\t'), ('n', '\n'),
    ('v', '\x0b'), ('f', '\x0c'), ('r', '\r'), ('e', '\x1b'), (' ', ' '), ('"', '"'), ('/', '/'),
    ('\\', '\\'), ('N', '\u0085'), ('_', '\u00a0'), ('L', '\u2028'), ('P', '\u2029')]

/-- The number of digits of an escape by code point. -/
def escapeDigits? (c : Char) : Option Nat :=
  if c = 'x' then some 2 else if c = 'u' then some 4 else if c = 'U' then some 8 else none

/-- The number of hexadecimal digits, as many as `n`, at the head of a text. -/
def readHexDigits (acc : Nat) : Nat → List Char → Option Nat
  | 0, _ => some acc
  | n + 1, c :: cs =>
    match Json.hexValue? c.toUInt8 with
    | some d => if c.toNat < 128 then readHexDigits (16 * acc + d) n cs else none
    | none => none
  | _ + 1, [] => none

/-- Reads an escape after its backslash. -/
def readEscape (p : Place) : Option (Char × Place) :=
  match p.rest with
  | [] => none
  | c :: rest =>
    match escapes.lookup c with
    | some d => some (d, p.skip 1)
    | none => do
      let n ← escapeDigits? c
      let v ← readHexDigits 0 n rest
      if v.isValidChar then some (Char.ofNat v, p.skip (n + 1)) else none

/-- Reads the characters of a quoted scalar up to a blank or its end; the last result is whether an
escaped line break ends them. -/
def readQuotedRun (single : Bool) : Nat → Place → Option (List Char × Place × Bool)
  | 0, p => some ([], p, false)
  | fuel + 1, p =>
    match p.rest with
    | [] => some ([], p, false)
    | c :: rest =>
      let cons := fun (d : Char) (r : List Char × Place × Bool) => (d :: r.1, r.2)
      if isBlankChar c || isBreakChar c then some ([], p, false)
      else if single then
        if c = '\x27' then
          if rest.head? = some '\x27' then (readQuotedRun single fuel (p.skip 2)).map (cons c)
          else some ([], p, false)
        else (readQuotedRun single fuel (p.skip 1)).map (cons c)
      else if c = '"' then some ([], p, false)
      else if c = '\\' then
        if atBreak rest then some ([], (p.skip 1).skipBreak, true)
        else
          match readEscape (p.skip 1) with
          | some (d, q) => (readQuotedRun single fuel q).map (cons d)
          | none => none
      else (readQuotedRun single fuel (p.skip 1)).map (cons c)

/-- Reads a quoted scalar after its opening quote. -/
def readQuoted (single : Bool) : Nat → Place → Option (List Char × Place)
  | 0, _ => none
  | fuel + 1, p =>
    if (p.column = 0 ∧ atDocumentMark p.rest) ∨ p.rest = [] then none
    else
      match readQuotedRun single (p.rest.length + 1) p with
      | none => none
      | some (run, q, broken) =>
        if q.rest.head? = some (if single then '\x27' else '"') then some (run, q.skip 1)
        else
          match readGap 0 (q.rest.length + 1) ⟨[], [], [], broken⟩ q with
          | none => none
          | some (g, q) =>
            (readQuoted single fuel q).map fun r => (run ++ g.fold ++ r.1, r.2)

/-! ### Block scalars -/

/-- What becomes of the line breaks at the end of a block scalar. -/
inductive Chomping
  | strip
  | clip
  | keep
  deriving DecidableEq

/-- Reads a chomping indicator, if one comes next. -/
def readChomping (p : Place) : Option Chomping × Place :=
  match p.rest with
  | '+' :: _ => (some .keep, p.skip 1)
  | '-' :: _ => (some .strip, p.skip 1)
  | _ => (none, p)

/-- Reads an indentation indicator, if one comes next; zero is none. -/
def readIncrement (p : Place) : Option (Option Nat × Place) :=
  match p.rest with
  | c :: _ =>
    if c = '0' then none
    else if c.isDigit then some (some (c.toNat - '0'.toNat), p.skip 1)
    else some (none, p)
  | [] => some (none, p)

/-- Reads the indicators of a block scalar, in either order. -/
def readIndicators (p : Place) : Option (Chomping × Option Nat × Place) := do
  let (chomping, q) := readChomping p
  let (increment, q) ← readIncrement q
  match chomping with
  | some c => some (c, increment, q)
  | none =>
    match increment with
    | none => some (.clip, none, q)
    | some n =>
      let (chomping, q) := readChomping q
      some (chomping.getD .clip, some n, q)

/-- Passes over indentation and empty lines before a line of a block scalar: the line breaks, the
largest column reached, and the place. The indentation is not known if `indent` is zero. -/
def readBlockBreaks (indent : Nat) : Nat → Nat → Place → Option (List Char × Nat × Place)
  | 0, most, p => some ([], most, p)
  | fuel + 1, most, p =>
    let spaces := (p.rest.takeWhile (· = ' ')).length
    let p := p.skip (if indent = 0 then spaces else min spaces (indent - p.column))
    let most := max most p.column
    if (indent = 0 ∨ p.column < indent) ∧ p.rest.head? = some '\t' then none
    else if atBreak p.rest then
      (readBlockBreaks indent fuel most p.skipBreak).map fun r => (p.breakText ++ r.1, r.2)
    else some ([], most, p)

/-- Reads the lines of a block scalar: its text, and the line breaks at its end, the one of the last
line and those of the empty lines after it. -/
def readBlockLines (folded : Bool) (indent : Nat) : Nat → (wasBlank : Bool) →
    (first more : List Char) → Place → Option (List Char × List Char × List Char × Place)
  | 0, _, first, more, p => some ([], first, more, p)
  | fuel + 1, wasBlank, first, more, p =>
    if p.column = indent ∧ p.rest ≠ [] then
      let blank := atBlank p.rest
      let joint :=
        if folded && first == ['\n'] && !wasBlank && !blank then
          if more = [] then [' '] else more
        else first ++ more
      let line := p.rest.takeWhile fun c => !isBreakChar c
      let q := p.skip line.length
      match readBlockBreaks indent (q.rest.length + 1) 0 q.skipBreak with
      | none => none
      | some (breaks, _, r) =>
        (readBlockLines folded indent fuel blank q.breakText breaks r).map fun s =>
          (joint ++ line ++ s.1, s.2)
    else some ([], first, more, p)

/-- Reads a block scalar after its first indicator, inside a block of column `parent`. -/
def readBlock (folded : Bool) (parent : Int) (p : Place) : Option (List Char × Place) := do
  let (chomping, increment, p) ← readIndicators p
  let p := (p.skipWhile isBlankChar).skipComment
  if !atBreakOrEnd p.rest then none
  else
    let p := p.skipBreak
    let given := (increment.map fun n => (max parent 0).toNat + n).getD 0
    let (breaks, most, p) ← readBlockBreaks given (p.rest.length + 1) 0 p
    let indent := if given = 0 then max (max most (parent + 1).toNat) 1 else given
    let (text, first, more, p) ← readBlockLines folded indent (p.rest.length + 1) false [] breaks p
    let tail := match chomping with
      | .strip => []
      | .clip => first
      | .keep => first ++ more
    some (text ++ tail, p)

end RestDispatch.Yaml
