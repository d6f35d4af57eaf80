import RestDispatch.Declaration.Cursor
import RestDispatch.Declaration.Ty

/-!
# Readers of types

The types that declarations name are read with one token of lookahead, or with a few. What stands in
the braces of a constant is not looked at, and the length of an array is one of literals, paths and
calls with operators between them.
-/

namespace RestDispatch.Declaration

namespace Ty

/-- Whether a type is a path of names alone. -/
def isPlain : Ty → Bool
  | .path false lead _ none => !lead.any (Token.isMark '<')
  | _ => false

/-- Whether a type is a path that a type qualifies. -/
def isQualified : Ty → Bool
  | .path true _ _ _ => true
  | _ => false

/-- What a type can begin with. -/
def beginnings : String :=
  "one of: `for`, parentheses, `fn`, `unsafe`, `extern`, identifier, `::`, `<`, `dyn`, " ++
    "square brackets, `*`, `&`, `!`, `impl`, `_`, lifetime"

end Ty

/-! ### What comes next -/

/-- The words besides names that a path can consist of. -/
def pathWords : List String := ["self", "Self", "super", "crate", "try"]

namespace Token

/-- Whether a token is the unit type. -/
def isUnit : Token → Bool
  | .group .parenthesis [] => true
  | _ => false

/-- Whether a token can be a segment of a path. -/
def isSegment : Token → Bool
  | .word w => isName w || pathWords.contains w
  | _ => false

/-- Whether a token is a literal, be it a word or not. -/
def isValue (t : Token) : Bool := t.isLiteral || t.isOneOf ["true", "false"]

/-- Whether a token is a sign before an operand. -/
def isSign : Token → Bool
  | .mark c _ => ['*', '!', '-'].contains c
  | _ => false

end Token

/-- Whether a literal comes next, or the sign of one. -/
def startsWithConstant (ts : List Token) : Bool :=
  startsWith Token.isValue ts || startsWithMark '-' ts

/-- Whether the name of a function's parameter comes next. -/
def startsWithLabel (ts : List Token) : Bool :=
  startsWithEach [Token.isAnyWord, Token.isMark ':'] ts && !startsWithPair ':' ':' (ts.drop 1)

/-- Whether a path goes on with another segment. -/
def continuesPath (ts : List Token) : Bool :=
  startsWithPair ':' ':' ts && !startsWithGroup .parenthesis (ts.drop 2)

/-- The number of marks that open the arguments of a path segment, if it has any; in an expression
they follow a double colon. -/
def argumentsOpening? (inExpr : Bool) (ts : List Token) : Option Nat :=
  if startsWithPair ':' ':' ts && startsWithMark '<' (ts.drop 2) then some 3
  else if !inExpr && startsWithMark '<' ts && !startsWithPair '<' '=' ts then some 1
  else none

/-- The marks that are operators with another one of two arguments. -/
def operatorMarks : List Char := ['+', '-', '*', '/', '%', '^', '&', '|', '<', '>', '=']

/-- The marks that are operators with an equality sign after them. -/
def equatedMarks : List Char := '!' :: operatorMarks

/-- The length of the binary operator at the head of a list of tokens, if there is one. -/
def operatorLength? (ts : List Token) : Option Nat :=
  if startsWithPair '=' '>' ts then none
  else if startsWithPair '<' '<' ts || startsWithPair '>' '>' ts then
    some (if startsWithPair '<' '=' (ts.drop 1) || startsWithPair '>' '=' (ts.drop 1) then 3 else 2)
  else if startsWithPair '&' '&' ts || startsWithPair '|' '|' ts then some 2
  else if equatedMarks.any fun c => startsWithPair c '=' ts then some 2
  else if operatorMarks.any fun c => startsWithMark c ts then some 1
  else none

open Reader

/-! ### Readers -/

/-- Reads the word of a path segment. -/
def segmentWord : Reader String := do
  match ← peek with
  | .word w :: _ => if pathWords.contains w then advance 1; return w else name
  | _ => name

/-- Passes over a double colon, if it comes next. -/
def skipDoubleColon : Reader Unit := do
  if startsWithPair ':' ':' (← peek) then advance 2 else return

/-- Passes over the name of a function's parameter, if it comes next. -/
def skipLabel : Reader Unit := do
  if startsWithLabel (← peek) then advance 2 else return

/-- Passes over a lifetime. -/
def skipLifetime : Reader Unit := do
  if startsWith Token.isLifetime (← peek) then advance 1 else refuse "lifetime"

/-- Reads lifetimes with plus signs between them, and perhaps one after the last. -/
def readOutlived : Nat → Reader Unit
  | 0 => refuse "lifetime"
  | fuel + 1 => do
    if startsWith Token.isLifetime (← peek) then
      advance 1
      if startsWithMark '+' (← peek) then
        advance 1
        readOutlived fuel
      else return
    else return

/-- Reads the lifetimes that a lifetime outlives, if they are given. -/
def readLifetimeBounds (fuel : Nat) : Reader Unit := do
  if startsWithMark ':' (← peek) then
    advance 1
    readOutlived fuel
  else return

/-- Reads lifetimes up to the closing bracket, and over that. -/
def readLifetimes : Nat → Reader Unit
  | 0 => refuse "lifetime"
  | fuel + 1 => do
    if startsWithMark '>' (← peek) then advance 1
    else
      skipLifetime
      readLifetimeBounds fuel
      if startsWithMark '>' (← peek) then advance 1
      else
        mark ','
        readLifetimes fuel

/-- Reads the lifetimes that `for` binds. -/
def readFor (fuel : Nat) : Reader Unit := do
  skipWord "for"
  mark '<'
  readLifetimes fuel

/-- Reads the lifetimes that `for` binds, if it comes next. -/
def readBinder (fuel : Nat) : Reader Unit := do
  if startsWithWord "for" (← peek) then readFor fuel else return

/-- Passes over the name of a calling convention. -/
def skipLinkage : Reader Unit := do
  if startsWithWord "extern" (← peek) then
    advance 1
    skipIf Token.isText
  else return

/-- Reads the marks of a reference. -/
def readReferenceMarks : Reader Unit := do
  mark '&'
  skipIf Token.isLifetime
  skipIf (Token.isWord "mut")

/-- Reads the marks of a pointer. -/
def readPointerMarks : Reader Unit := do
  mark '*'
  if startsWith (Token.isOneOf ["const", "mut"]) (← peek) then advance 1
  else refuse "`const` or `mut`"

/-- Reads a type that is kept as its tokens. -/
def readOther {α : Type} (p : Reader α) : Reader Ty := do
  let (_, ts) ← consumed p
  return .other ts

mutual

/-- Reads a type. A sum of bounds is one only where `plus` admits it. -/
def readTy (plus : Bool) : Nat → Reader Ty
  | 0 => refuse Ty.beginnings
  | fuel + 1 => do
    let ts ← peek
    if startsWith Token.isUnit ts then advance 1; return .unit
    else if startsWithGroup .parenthesis ts then readGrouped plus fuel
    else if startsWithGroup .bracket ts then readOther (within .bracket (readElement fuel))
    else if startsWithMark '&' ts then
      let (_, marks) ← consumed readReferenceMarks
      let t ← readTy false fuel
      return .reference marks t
    else if startsWithMark '*' ts then
      readOther do
        readPointerMarks
        readTy false fuel
    else if startsWithMark '!' ts || startsWithWord "_" ts then readOther (advance 1)
    else if startsWith Token.isLifetime ts then readOther (readBounds fuel)
    else if startsWithMark '<' ts || startsWithPair ':' ':' ts then readPathTy plus fuel
    else if startsWith (Token.isOneOf ["dyn", "impl"]) ts then
      readOther do
        advance 1
        readBounds fuel
    else if startsWithWord "for" ts then
      readOther do
        readFor fuel
        readTy plus fuel
    else if startsWith (Token.isOneOf ["fn", "unsafe", "extern"]) ts then
      readOther (readFunction fuel)
    else if startsWith Token.isSegment ts then readPathTy plus fuel
    else refuse Ty.beginnings

/-- Reads the element of a slice or an array, and the length of an array. -/
def readElement : Nat → Reader Unit
  | 0 => refuse Ty.beginnings
  | fuel + 1 => do
    let _ ← readTy true fuel
    if startsWithMark ';' (← peek) then
      advance 1
      readConstant fuel
    else return

/-- Reads the operand of a constant, with its signs and the arguments of a call. -/
def readConstant : Nat → Reader Unit
  | 0 => refuse Ty.beginnings
  | fuel + 1 => do
    let ts ← peek
    if startsWith Token.isSign ts then
      advance 1
      readConstant fuel
    else if startsWith Token.isValue ts then
      let _ ← literal
      readConstantRest fuel
    else if startsWithGroup .brace ts then advance 1
    else if startsWithGroup .parenthesis ts then
      within .parenthesis (readConstant fuel)
      readConstantRest fuel
    else
      let _ ← readPath true fuel
      skipIf (Token.isGroup .parenthesis)
      readConstantRest fuel

/-- Reads the operators of a constant after its first operand, and their operands. -/
def readConstantRest : Nat → Reader Unit
  | 0 => refuse Ty.beginnings
  | fuel + 1 => do
    let ts ← peek
    if startsWithWord "as" ts then
      advance 1
      let _ ← readTy false fuel
      readConstantRest fuel
    else
      match operatorLength? ts with
      | some n =>
        advance n
        readConstant fuel
      | none => return

/-- Reads a type in parentheses, a tuple, or bounds the first of which stands in parentheses. -/
def readGrouped (plus : Bool) : Nat → Reader Ty
  | 0 => refuse Ty.beginnings
  | fuel + 1 => do
    let ((t, more), ts) ← consumed do
      let t ← within .parenthesis (readContent fuel)
      let more ← readFurther plus t fuel
      return (t, more)
    match t with
    | some t => return if more then .other ts else .paren t
    | none => return .other ts

/-- Reads what stands in parentheses: a type, or several, of which there is no result. -/
def readContent : Nat → Reader (Option Ty)
  | 0 => refuse Ty.beginnings
  | fuel + 1 => do
    let first ← readTy true fuel
    if startsWithMark ',' (← peek) then
      readTuple fuel
      return none
    else return some first

/-- Reads the elements of a tuple after the first. -/
def readTuple : Nat → Reader Unit
  | 0 => refuse Ty.beginnings
  | fuel + 1 => do
    if (← peek).isEmpty then return
    else
      mark ','
      readTypes fuel

/-- Reads types with commas between them. -/
def readTypes : Nat → Reader Unit
  | 0 => refuse Ty.beginnings
  | fuel + 1 => do
    if (← peek).isEmpty then return
    else
      let _ ← readTy true fuel
      readTuple fuel

/-- Reads the bounds after one in parentheses: whether there are any. -/
def readFurther (plus : Bool) (t : Option Ty) : Nat → Reader Bool
  | 0 => refuse Ty.beginnings
  | fuel + 1 => do
    if plus && t.any Ty.isBound && startsWithMark '+' (← peek) then
      advance 1
      readBounds fuel
      return true
    else return false

/-- Reads a function type. -/
def readFunction : Nat → Reader Unit
  | 0 => refuse Ty.beginnings
  | fuel + 1 => do
    skipIf (Token.isWord "unsafe")
    skipLinkage
    skipWord "fn"
    within .parenthesis (readParameters fuel)
    readResult fuel

/-- Reads the parameters of a function type, each with its name or without one. -/
def readParameters : Nat → Reader Unit
  | 0 => refuse Ty.beginnings
  | fuel + 1 => do
    if (← peek).isEmpty then return
    else
      skipLabel
      readParameter fuel
      if (← peek).isEmpty then return
      else
        mark ','
        readParameters fuel

/-- Reads the type of a parameter, which may be any number of arguments. -/
def readParameter : Nat → Reader Unit
  | 0 => refuse Ty.beginnings
  | fuel + 1 => do
    if startsWithPair '.' '.' (← peek) then
      advance 2
      mark '.'
    else
      let _ ← readTy true fuel
      return

/-- Reads the result type of a function, if it has one. -/
def readResult : Nat → Reader Unit
  | 0 => refuse Ty.beginnings
  | fuel + 1 => do
    if startsWithPair '-' '>' (← peek) then
      advance 2
      let _ ← readTy false fuel
      return
    else return

/-- Reads bounds with plus signs between them. -/
def readBounds : Nat → Reader Unit
  | 0 => refuse Ty.beginnings
  | fuel + 1 => do
    readSoleBound fuel
    if startsWithMark '+' (← peek) then
      advance 1
      readBounds fuel
    else return

/-- Reads a bound with what stands before it. -/
def readSoleBound : Nat → Reader Unit
  | 0 => refuse Ty.beginnings
  | fuel + 1 => do
    readBinder fuel
    skipIf (Token.isMark '?')
    readBound fuel

/-- Reads a bound. -/
def readBound : Nat → Reader Unit
  | 0 => refuse Ty.beginnings
  | fuel + 1 => do
    let ts ← peek
    if startsWith Token.isLifetime ts then advance 1
    else if startsWithGroup .parenthesis ts then within .parenthesis (readSoleBound fuel)
    else
      skipDoubleColon
      let _ ← readSegments false false [] fuel
      readInputs fuel

/-- Reads the types that a trait of functions takes and the type of its result, if they are given. -/
def readInputs : Nat → Reader Unit
  | 0 => refuse Ty.beginnings
  | fuel + 1 => do
    if startsWithGroup .parenthesis (← peek) then
      within .parenthesis (readTypes fuel)
      readResult fuel
    else return

/-- Reads a type that begins with a path. -/
def readPathTy (plus : Bool) : Nat → Reader Ty
  | 0 => refuse Ty.beginnings
  | fuel + 1 => do
    let ((t, more), ts) ← consumed do
      let t ← readPath false fuel
      let more ← readExtension plus t fuel
      return (t, more)
    return if more then .other ts else t

/-- Reads what makes another type of a path, the tokens of a macro or further bounds: whether there
is such a thing. -/
def readExtension (plus : Bool) (t : Ty) : Nat → Reader Bool
  | 0 => refuse Ty.beginnings
  | fuel + 1 => do
    let ts ← peek
    if t.isPlain && startsWithMark '!' ts && !startsWithPair '!' '=' ts then
      advance 1
      if startsWith Token.isAnyGroup (← peek) then advance 1; return true else refuse "delimiter"
    else if plus && !t.isQualified && startsWithMark '+' ts then
      advance 1
      readBounds fuel
      return true
    else return false

/-- Reads a path; in an expression its arguments follow a double colon. -/
def readPath (inExpr : Bool) : Nat → Reader Ty
  | 0 => refuse "identifier"
  | fuel + 1 => do
    let ts ← peek
    if startsWithMark '<' ts then
      let (_, lead) ← consumed (readQualifier fuel)
      readSegments inExpr true lead fuel
    else if startsWithPair ':' ':' ts then
      advance 2
      readSegments inExpr false (ts.take 2) fuel
    else readSegments inExpr false [] fuel

/-- Reads the type that qualifies a path, with the marks around it. -/
def readQualifier : Nat → Reader Unit
  | 0 => refuse Ty.beginnings
  | fuel + 1 => do
    mark '<'
    let _ ← readTy true fuel
    readTrait fuel
    mark '>'
    mark ':'
    mark ':'

/-- Reads the trait that a qualifying type is taken as, if there is one. -/
def readTrait : Nat → Reader Unit
  | 0 => refuse Ty.beginnings
  | fuel + 1 => do
    if startsWithWord "as" (← peek) then
      advance 1
      let _ ← readPath false fuel
      return
    else return

/-- Reads the segments of a path after the tokens `lead`. -/
def readSegments (inExpr qualified : Bool) (lead : List Token) : Nat → Reader Ty
  | 0 => refuse "identifier"
  | fuel + 1 => do
    let ((w, arguments), read) ← consumed do
      let w ← segmentWord
      let arguments ← readArguments inExpr fuel
      return (w, arguments)
    let ts ← peek
    if continuesPath ts then
      advance 2
      readSegments inExpr qualified (lead ++ read ++ ts.take 2) fuel
    else return .path qualified lead w arguments

/-- Reads the arguments of a path segment, if it has any. -/
def readArguments (inExpr : Bool) : Nat → Reader (Option (TyArguments Ty))
  | 0 => refuse Ty.beginnings
  | fuel + 1 => do
    let ts ← peek
    match argumentsOpening? inExpr ts with
    | some n =>
      advance n
      let (items, commas) ← readItems fuel
      let closing ← takeMark '>'
      return some ⟨ts.take n, items, commas, closing⟩
    | none => return none

/-- Reads arguments up to the closing bracket, and the commas between them. -/
def readItems : Nat → Reader (List (TyArgument Ty) × List Token)
  | 0 => refuse Ty.beginnings
  | fuel + 1 => do
    if startsWithMark '>' (← peek) then return ([], [])
    else
      let a ← readArgument fuel
      if startsWithMark '>' (← peek) then return ([a], [])
      else
        let comma ← takeMark ','
        let (as, cs) ← readItems fuel
        return (a :: as, comma :: cs)

/-- Reads an argument of a generic type. -/
def readArgument : Nat → Reader (TyArgument Ty)
  | 0 => refuse Ty.beginnings
  | fuel + 1 => do
    let ts ← peek
    if startsWith Token.isLifetime ts || startsWithGroup .brace ts then
      advance 1
      return .other (ts.take 1)
    else if startsWithConstant ts then
      let (_, read) ← consumed literal
      return .other read
    else
      let ((t, more), ts) ← consumed do
        let t ← readTy true fuel
        let more ← readBinding fuel
        return (t, more)
      return if more then .other ts else .type t

/-- Reads what makes a binding of an argument, a value or bounds: whether there is such a thing. -/
def readBinding : Nat → Reader Bool
  | 0 => refuse Ty.beginnings
  | fuel + 1 => do
    let ts ← peek
    if startsWithMark '=' ts then
      advance 1
      readAssigned fuel
      return true
    else if startsWithMark ':' ts && !startsWithPair ':' ':' ts then
      advance 1
      readBounds fuel
      return true
    else return false

/-- Reads the constant or the type that is bound. -/
def readAssigned : Nat → Reader Unit
  | 0 => refuse Ty.beginnings
  | fuel + 1 => do
    let ts ← peek
    if startsWithGroup .brace ts then advance 1
    else if startsWithConstant ts then
      let _ ← literal
      return
    else
      let _ ← readTy true fuel
      return

end

end RestDispatch.Declaration
