import RestDispatch.Declaration.Expr
import RestDispatch.Declaration.TyReader

/-!
# Readers of expressions

The expressions that give routes their URLs are read down to the arguments of calls, the elements of
arrays and the patterns of closures. What stands in the braces of a block, and the arguments of a
macro, are not looked at.
-/

namespace RestDispatch.Declaration

/-! ### What comes next -/

namespace Token

/-- Whether a token can stand before the bars of a closure. -/
def isClosureWord : Token → Bool := isOneOf ["const", "static", "async", "move"]

/-- Whether an expression cannot begin with a token. -/
def isEnd : Token → Bool
  | .mark c _ => [',', ';', '.', '=', ')', '?'].contains c
  | _ => false

end Token

/-- Whether an expression cannot begin at the head of a list of tokens. -/
def endsExpr (ts : List Token) : Bool := ts.isEmpty || startsWith Token.isEnd ts

/-- The length of the two or three marks of a range. -/
def rangeLength (ts : List Token) : Nat := if startsWithPair '.' '=' (ts.drop 1) then 3 else 2

/-- Whether a list of tokens begins with lifetimes that a closure binds. -/
def startsWithBinder : List Token → Bool :=
  startsWithEach [Token.isWord "for", Token.isMark '<', fun t => t.isLifetime || t.isMark '>']

/-- Whether a list of tokens begins with a closure. -/
def startsWithClosure (ts : List Token) : Bool :=
  startsWithBinder ts || startsWithMark '|' (ts.dropWhile Token.isClosureWord)

/-- Whether a list of tokens begins with an attribute. -/
def startsWithAttribute : List Token → Bool :=
  startsWithEach [Token.isMark '#', Token.isGroup .bracket]

/-- Whether the arguments of a macro come next. -/
def startsWithMacro : List Token → Bool := startsWithEach [Token.isMark '!', Token.isAnyGroup]

/-- What an expression is expected to be where none begins. -/
def someExpression : String := "an expression"

/-- What a pattern is expected to be where none begins. -/
def somePattern : String :=
  "one of: identifier, `::`, `<`, `_`, `ref`, `mut`, `&`, parentheses, square brackets, `..`, `const`"

open Reader

/-! ### Readers -/

mutual

/-- Reads an expression; a path before a brace is a record only where `records` admits it. -/
def readExpr (records : Bool) : Nat → Reader ExprForm
  | 0 => refuse someExpression
  | fuel + 1 => do
    let form ← readUnary records fuel
    readOperands records form fuel

/-- Reads the operators after an operand and their operands. -/
def readOperands (records : Bool) (form : ExprForm) : Nat → Reader ExprForm
  | 0 => refuse someExpression
  | fuel + 1 => do
    let ts ← peek
    if startsWithWord "as" ts then
      advance 1
      let _ ← readTy false fuel
      readOperands records .other fuel
    else if startsWithPair '.' '.' ts then
      advance (rangeLength ts)
      readLimit records fuel
      readOperands records .other fuel
    else
      match operatorLength? ts with
      | some n =>
        advance n
        let _ ← readUnary records fuel
        readOperands records .other fuel
      | none => return form

/-- Reads the upper limit of a range, if it has one. -/
def readLimit (records : Bool) : Nat → Reader Unit
  | 0 => refuse someExpression
  | fuel + 1 => do
    if endsExpr (← peek) then return
    else
      let _ ← readUnary records fuel
      return

/-- Reads an operand with its signs. -/
def readUnary (records : Bool) : Nat → Reader ExprForm
  | 0 => refuse someExpression
  | fuel + 1 => do
    let ts ← peek
    if startsWithAttribute ts then
      advance 2
      readUnary records fuel
    else if startsWithMark '&' ts then
      advance 1
      skipIf (Token.isWord "mut")
      let _ ← readUnary records fuel
      return .other
    else if startsWith Token.isSign ts then
      advance 1
      let _ ← readUnary records fuel
      return .other
    else
      let form ← readOperand records fuel
      readTrailers form fuel

/-- Reads the calls, fields, indices and question marks after an operand. -/
def readTrailers (form : ExprForm) : Nat → Reader ExprForm
  | 0 => refuse someExpression
  | fuel + 1 => do
    let ts ← peek
    if startsWithGroup .parenthesis ts then
      within .parenthesis (readExprs fuel)
      readTrailers .other fuel
    else if startsWithGroup .bracket ts then
      let _ ← within .bracket (readExpr true fuel)
      readTrailers .other fuel
    else if startsWithMark '?' ts then
      advance 1
      readTrailers .other fuel
    else if startsWithMark '.' ts && !startsWithPair '.' '.' ts then
      advance 1
      readMember fuel
      readTrailers .other fuel
    else return form

/-- Reads expressions with commas between them. -/
def readExprs : Nat → Reader Unit
  | 0 => refuse someExpression
  | fuel + 1 => do
    if (← peek).isEmpty then return
    else
      let _ ← readExpr true fuel
      readMoreExprs fuel

/-- Reads the expressions after the first. -/
def readMoreExprs : Nat → Reader Unit
  | 0 => refuse someExpression
  | fuel + 1 => do
    if (← peek).isEmpty then return
    else
      mark ','
      readExprs fuel

/-- Reads the elements of an array, or one element and its number. -/
def readElements : Nat → Reader Unit
  | 0 => refuse someExpression
  | fuel + 1 => do
    if (← peek).isEmpty then return
    else
      let _ ← readExpr true fuel
      if startsWithMark ';' (← peek) then
        advance 1
        let _ ← readExpr true fuel
        return
      else readMoreExprs fuel

/-- Reads the field or the method after a point. -/
def readMember : Nat → Reader Unit
  | 0 => refuse someExpression
  | fuel + 1 => do
    let ts ← peek
    if startsWith Token.isLiteral ts then advance 1
    else if startsWith Token.isAnyWord ts then
      advance 1
      let _ ← readArguments true fuel
      return
    else refuse "identifier"

/-- Reads an operand without its signs and trailers. -/
def readOperand (records : Bool) : Nat → Reader ExprForm
  | 0 => refuse someExpression
  | fuel + 1 => do
    let ts ← peek
    if startsWithClosure ts then readClosure records fuel
    else if startsWith Token.isValue ts then
      let l ← literal
      return .ofLiteral l
    else if startsWithGroup .parenthesis ts then
      within .parenthesis (readExprs fuel)
      return .other
    else if startsWithGroup .bracket ts then
      within .bracket (readElements fuel)
      return .other
    else if startsWithGroup .brace ts || startsWithWord "_" ts then advance 1; return .other
    else if startsWith Token.isLifetime ts then
      advance 1
      skipIf (Token.isMark ':')
      readOperand records fuel
    else if startsWithPair '.' '.' ts then
      advance (rangeLength ts)
      readRest records fuel
      return .other
    else if startsWithMark '<' ts || startsWithMark ':' ts || startsWith Token.isSegment ts then
      readPathExpr records fuel
    else readKeyword records fuel

/-- Reads an operand that begins with a keyword. -/
def readKeyword (records : Bool) : Nat → Reader ExprForm
  | 0 => refuse someExpression
  | fuel + 1 => do
    let ts ← peek
    if startsWith (Token.isOneOf ["if", "while", "match"]) ts then
      advance 1
      let _ ← readExpr false fuel
      skipGroup .brace
      readElse fuel
      return .other
    else if startsWithWord "for" ts then
      advance 1
      readAlternatives fuel
      skipWord "in"
      let _ ← readExpr false fuel
      skipGroup .brace
      return .other
    else if startsWith (Token.isOneOf ["loop", "unsafe", "const", "async", "move"]) ts then
      advance 1
      skipIf (Token.isWord "move")
      skipGroup .brace
      return .other
    else if startsWithWord "let" ts then
      advance 1
      readAlternatives fuel
      mark '='
      let _ ← readExpr false fuel
      return .other
    else if startsWith (Token.isOneOf ["return", "break", "continue", "yield"]) ts then
      advance 1
      skipIf Token.isLifetime
      readRest records fuel
      return .other
    else refuse someExpression

/-- Reads an expression unless none begins. -/
def readRest (records : Bool) : Nat → Reader Unit
  | 0 => refuse someExpression
  | fuel + 1 => do
    if endsExpr (← peek) then return
    else
      let _ ← readExpr records fuel
      return

/-- Reads what may follow the block of a condition. -/
def readElse : Nat → Reader Unit
  | 0 => refuse someExpression
  | fuel + 1 => do
    if startsWithWord "else" (← peek) then
      advance 1
      if startsWithWord "if" (← peek) then
        let _ ← readOperand true fuel
        return
      else skipGroup .brace
    else return

/-- Reads a path, the call of a macro or a record. -/
def readPathExpr (records : Bool) : Nat → Reader ExprForm
  | 0 => refuse someExpression
  | fuel + 1 => do
    let _ ← readPath true fuel
    let ts ← peek
    if startsWithMacro ts then advance 2; return .other
    else if records && startsWithGroup .brace ts then
      within .brace (readFieldValues fuel)
      return .other
    else return .path

/-- Reads the fields of a record with their values, and the record that gives the others. -/
def readFieldValues : Nat → Reader Unit
  | 0 => refuse someExpression
  | fuel + 1 => do
    let ts ← peek
    if ts.isEmpty then return
    else if startsWithPair '.' '.' ts then
      advance 2
      readRest true fuel
    else
      readFieldValue fuel
      if (← peek).isEmpty then return
      else
        mark ','
        readFieldValues fuel

/-- Reads a field, and its value if it has one. -/
def readFieldValue : Nat → Reader Unit
  | 0 => refuse someExpression
  | fuel + 1 => do
    let ts ← peek
    if startsWith Token.isLiteral ts || startsWith Token.isAnyWord ts then
      advance 1
      if startsWithMark ':' (← peek) then
        advance 1
        let _ ← readExpr true fuel
        return
      else return
    else refuse "identifier"

/-- Reads a closure. -/
def readClosure (records : Bool) : Nat → Reader ExprForm
  | 0 => refuse someExpression
  | fuel + 1 => do
    readBinder fuel
    replace (List.dropWhile Token.isClosureWord) fun _ => List.dropWhile_suffix _
    mark '|'
    let params ← readParams fuel
    mark '|'
    readBody records fuel
    return .closure params

/-- Reads the body of a closure, which is a block if its type is given. -/
def readBody (records : Bool) : Nat → Reader Unit
  | 0 => refuse someExpression
  | fuel + 1 => do
    if startsWithPair '-' '>' (← peek) then
      advance 2
      let _ ← readTy false fuel
      skipGroup .brace
    else
      let _ ← readExpr records fuel
      return

/-- Reads the parameters of a closure. -/
def readParams : Nat → Reader (List (Option Ty))
  | 0 => refuse someExpression
  | fuel + 1 => do
    let ts ← peek
    if startsWithMark '|' ts then return []
    else if startsWithAttribute ts then
      advance 2
      readParams fuel
    else
      readPattern fuel
      let t ← readParameterTy fuel
      if startsWithMark '|' (← peek) then return [t]
      else
        mark ','
        let ts ← readParams fuel
        return t :: ts

/-- Reads the type of a closure's parameter, if it has one. -/
def readParameterTy : Nat → Reader (Option Ty)
  | 0 => refuse someExpression
  | fuel + 1 => do
    if startsWithMark ':' (← peek) then
      advance 1
      let t ← readTy true fuel
      return some t
    else return none

/-- Reads a pattern. -/
def readPattern : Nat → Reader Unit
  | 0 => refuse somePattern
  | fuel + 1 => do
    let ts ← peek
    if startsWithMark '&' ts then
      advance 1
      skipIf (Token.isWord "mut")
      readPattern fuel
    else if startsWithGroup .parenthesis ts then within .parenthesis (readPatterns fuel)
    else if startsWithGroup .bracket ts then within .bracket (readPatterns fuel)
    else if startsWithWord "_" ts then advance 1
    else if startsWithPair '.' '.' ts then advance 2
    else if startsWithConstant ts then
      let _ ← literal
      return
    else if startsWith (Token.isOneOf ["ref", "mut"]) ts then
      advance 1
      skipIf (Token.isWord "mut")
      let _ ← name
      readPatternRest fuel
    else if startsWithMark '<' ts || startsWithPair ':' ':' ts || startsWith Token.isSegment ts then
      let _ ← readPath true fuel
      readPatternRest fuel
    else refuse somePattern

/-- Reads what may follow a name or a path in a pattern. -/
def readPatternRest : Nat → Reader Unit
  | 0 => refuse somePattern
  | fuel + 1 => do
    let ts ← peek
    if startsWithMark '@' ts then
      advance 1
      readPattern fuel
    else if startsWithGroup .parenthesis ts then within .parenthesis (readPatterns fuel)
    else if startsWithMacro ts then advance 2
    else skipIf (Token.isGroup .brace)

/-- Reads patterns with commas between them. -/
def readPatterns : Nat → Reader Unit
  | 0 => refuse somePattern
  | fuel + 1 => do
    if (← peek).isEmpty then return
    else
      readAlternatives fuel
      if (← peek).isEmpty then return
      else
        mark ','
        readPatterns fuel

/-- Reads patterns with bars between them, and perhaps one before the first. -/
def readAlternatives : Nat → Reader Unit
  | 0 => refuse somePattern
  | fuel + 1 => do
    skipIf (Token.isMark '|')
    readPattern fuel
    if startsWithMark '|' (← peek) then readAlternatives fuel else return

end

end RestDispatch.Declaration
