/-!
# Tokens of declarations

A declaration is a list of token trees: words, marks, lifetimes, literals and groups between
delimiters. `texts` lists the texts of all tokens in order, each delimiter and each mark a text of
its own.
-/

namespace RestDispatch.Declaration

/-- What a literal denotes. -/
inductive LiteralKind
  /-- A string with its value. -/
  | text (value : String)
  /-- An integer with its decimal digits. -/
  | integer (digits : String)
  /-- A number with a point or an exponent, with its digits. -/
  | float (digits : String)
  /-- A truth value. -/
  | boolean (value : Bool)
  /-- Any other literal: a character, octets, or a number that cannot be read. -/
  | other
  deriving DecidableEq

/-- The delimiters of a group. -/
inductive Delimiter
  | parenthesis
  | bracket
  | brace
  deriving DecidableEq

namespace Delimiter

/-- The opening delimiter. -/
def opening : Delimiter → String
  | .parenthesis => "("
  | .bracket => "["
  | .brace => "\x7b"

/-- The closing delimiter. -/
def closing : Delimiter → String
  | .parenthesis => ")"
  | .bracket => "]"
  | .brace => "\x7d"

/-- A delimiter in words. -/
def description : Delimiter → String
  | .parenthesis => "parentheses"
  | .bracket => "square brackets"
  | .brace => "curly braces"

end Delimiter

/-- A token, or a group of tokens between delimiters. A mark is joint if another mark follows it
without a gap. -/
inductive Token
  | word (name : String)
  | mark (c : Char) (joint : Bool)
  | lifetime (name : String)
  | literal (source : String) (kind : LiteralKind)
  | group (d : Delimiter) (content : List Token)

namespace Token

instance : Inhabited Token := ⟨.word ""⟩

mutual

/-- The texts of a token. -/
def texts : Token → List String
  | .word name => [name]
  | .mark c _ => [String.singleton c]
  | .lifetime name => ["\x27", name]
  | .literal source _ => [source]
  | .group d content => d.opening :: textsOfList content ++ [d.closing]

/-- The texts of a list of tokens. -/
def textsOfList : List Token → List String
  | [] => []
  | t :: ts => t.texts ++ textsOfList ts

end

mutual

/-- The number of tokens in a token tree, delimiters of groups included. -/
def weight : Token → Nat
  | .group _ content => weightOfList content + 2
  | _ => 1

/-- The number of tokens in a list of token trees. -/
def weightOfList : List Token → Nat
  | [] => 0
  | t :: ts => t.weight + weightOfList ts

end

/-- Whether a token is a given word. -/
def isWord (name : String) : Token → Bool
  | .word w => w == name
  | _ => false

/-- Whether a token is one of some words. -/
def isOneOf (names : List String) : Token → Bool
  | .word w => names.contains w
  | _ => false

/-- Whether a token is a word, be it a keyword or not. -/
def isAnyWord : Token → Bool
  | .word _ => true
  | _ => false

/-- Whether a token is a given mark. -/
def isMark (c : Char) : Token → Bool
  | .mark d _ => d == c
  | _ => false

/-- Whether a token is a lifetime. -/
def isLifetime : Token → Bool
  | .lifetime _ => true
  | _ => false

/-- Whether a token is a literal that is no word. -/
def isLiteral : Token → Bool
  | .literal _ _ => true
  | _ => false

/-- Whether a token is a string literal. -/
def isText : Token → Bool
  | .literal _ (.text _) => true
  | _ => false

/-- Whether a token is a group with a given delimiter. -/
def isGroup (d : Delimiter) : Token → Bool
  | .group e _ => e == d
  | _ => false

/-- Whether a token is a group. -/
def isAnyGroup : Token → Bool
  | .group _ _ => true
  | _ => false

end Token

/-- Whether a list of tokens begins with one that satisfies `p`. -/
def startsWith (p : Token → Bool) : List Token → Bool
  | t :: _ => p t
  | [] => false

/-- Whether a list of tokens begins with a given word. -/
abbrev startsWithWord (name : String) : List Token → Bool := startsWith (Token.isWord name)

/-- Whether a list of tokens begins with a given mark. -/
abbrev startsWithMark (c : Char) : List Token → Bool := startsWith (Token.isMark c)

/-- Whether a list of tokens begins with a given group. -/
abbrev startsWithGroup (d : Delimiter) : List Token → Bool := startsWith (Token.isGroup d)

/-- Whether a list of tokens begins with a given pair of marks without a gap. -/
def startsWithPair (c d : Char) : List Token → Bool
  | .mark a joint :: .mark b _ :: _ => a == c && joint && b == d
  | _ => false

/-- Whether a list of tokens begins with one token for each test of a list. -/
def startsWithEach : List (Token → Bool) → List Token → Bool
  | [], _ => true
  | _ :: _, [] => false
  | p :: ps, t :: ts => p t && startsWithEach ps ts

/-- The words that cannot be names. -/
def keywords : List String :=
  ["_", "abstract", "as", "async", "await", "become", "box", "break", "const", "continue", "crate",
    "do", "dyn", "else", "enum", "extern", "false", "final", "fn", "for", "if", "impl", "in", "let",
    "loop", "macro", "match", "mod", "move", "mut", "override", "priv", "pub", "ref", "return",
    "Self", "self", "static", "struct", "super", "trait", "true", "try", "type", "typeof", "unsafe",
    "unsized", "use", "virtual", "where", "while", "yield"]

/-- Whether a word can be a name. -/
def isName (w : String) : Bool := !keywords.contains w

end RestDispatch.Declaration
