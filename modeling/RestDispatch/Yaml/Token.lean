import RestDispatch.Yaml.Stream

/-!
# Tokens of YAML texts

The tokens that a YAML text is divided into, and the place in the text that has been reached. Block
collections have tokens for the indentation that opens and closes them.
-/

namespace RestDispatch.Yaml

/-- How a scalar is written. -/
inductive ScalarStyle
  | plain
  | singleQuoted
  | doubleQuoted
  | literal
  | folded
  deriving DecidableEq

/-- A token. -/
inductive Token
  | versionDirective (major minor : Nat)
  | tagDirective (handle lead : String)
  | documentStart
  | documentEnd
  | blockSequenceStart
  | blockMappingStart
  | blockEnd
  | flowSequenceStart
  | flowSequenceEnd
  | flowMappingStart
  | flowMappingEnd
  | blockEntry
  | flowEntry
  | key
  | value
  | alias (name : String)
  | anchor (name : String)
  | tag (handle suffix : String)
  | scalar (value : String) (style : ScalarStyle)
  deriving DecidableEq

/-- A place in a text: what follows it, its line and column, and how many characters stand before
it. -/
structure Place where
  rest : List Char
  line : Nat
  column : Nat
  index : Nat

namespace Place

/-- The place before a text. -/
def start (cs : List Char) : Place := ⟨cs, 0, 0, 0⟩

/-- The place after characters of the same line. -/
def skip (p : Place) (n : Nat) : Place :=
  { p with rest := p.rest.drop n, column := p.column + n, index := p.index + n }

/-- The place after the characters that have a property. -/
def skipWhile (p : Place) (f : Char → Bool) : Place := p.skip (p.rest.takeWhile f).length

/-- The place after a line break, if one comes next. -/
def skipBreak (p : Place) : Place :=
  let rest := (takeBreak p.rest).2
  if atBreak p.rest then ⟨rest, p.line + 1, 0, p.index + (p.rest.length - rest.length)⟩ else p

/-- The text of the line break that comes next. -/
def breakText (p : Place) : List Char := (takeBreak p.rest).1

/-- The place after a comment, if one comes next. -/
def skipComment (p : Place) : Place :=
  match p.rest with
  | '#' :: _ => p.skipWhile fun c => !isBreakChar c
  | _ => p

end Place
end RestDispatch.Yaml
