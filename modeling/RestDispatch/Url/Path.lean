import RestDispatch.Url.Basic

/-!
# Paths of URLs

A path grows by one segment after the other. The segment `.` leaves it as it is, and `..` takes the
last segment away; either may be percent-encoded. The letter of a drive that begins the path of a
file stays, and takes the place of the host.
-/

namespace RestDispatch.Url

/-- The segments that leave a path as it is. -/
def singleDots : List (List Char) := [".", "%2e", "%2E"].map String.toList

/-- The segments that take the last segment of a path away. -/
def doubleDots : List (List Char) :=
  ["..", ".%2e", ".%2E", "%2e.", "%2E.", "%2e%2e", "%2e%2E", "%2E%2e", "%2E%2E"].map String.toList

/-- Whether a text begins with the letter of a drive. -/
def startsWithDrive : List Char → Bool
  | a :: b :: rest =>
    a.isAlpha && (b == ':' || b == '|') &&
      match rest with
      | [] => true
      | c :: _ => c == '/' || c == '\\' || c == '?' || c == '#'
  | _ => false

/-- Whether a segment is the letter of a drive. -/
def isDrive (cs : List Char) : Bool := cs.length == 2 && startsWithDrive cs

/-- Whether a segment is the letter of a drive before a colon. -/
def isPlainDrive (cs : List Char) : Bool := isDrive cs && cs[1]? == some ':'

/-- A path up to its last slash. -/
def upToSlash (path : List Char) : List Char := (path.reverse.dropWhile (· ≠ '/')).reverse

/-- The last segment of a path. -/
def lastSegment (path : List Char) : List Char := (path.reverse.takeWhile (· ≠ '/')).reverse

/-- A path without its last segment, unless that is the letter of a drive. -/
def popSegment (kind : SchemeKind) (path : List Char) : List Char :=
  if kind = .file ∧ isPlainDrive (lastSegment path) then path else upToSlash path

/-- Whether the slash that ends a path may be taken away: it is not the first, and does not follow
the letter of a drive. -/
def canDropSlash (path : List Char) : Bool :=
  let before := path.dropLast
  before.contains '/' && !startsWithDrive (lastSegment before ++ ['/'])

/-- A path without its last segment, the empty one after a slash at its end not counting. -/
def parent (kind : SchemeKind) (path : List Char) : List Char :=
  let path := if path.getLast? = some '/' ∧ canDropSlash path then path.dropLast else path
  popSegment kind path

/-- A path that is growing, and whether the letter of a drive has taken the place of the host. -/
structure PathState where
  path : List Char
  drive : Bool

/-- Puts a segment at the end of a path; `more` says that a slash follows it. -/
def PathState.add (kind : SchemeKind) (s : PathState) (segment : List Char) (more : Bool) :
    PathState :=
  let slash := if more then ['/'] else []
  if segment ∈ doubleDots then
    let path := parent kind s.path
    { s with path := if path.getLast? = some '/' then path else path ++ slash }
  else if segment ∈ singleDots then
    { s with path := if s.path.getLast? = some '/' then s.path else s.path ++ ['/'] }
  else if kind = .file ∧ s.path.length = 1 ∧ isDrive segment then
    ⟨s.path ++ segment.take 1 ++ ':' :: slash, true⟩
  else { s with path := s.path ++ segment ++ slash }

/-- Whether a character separates the segments of a path. -/
def isSlash (kind : SchemeKind) (c : Char) : Bool := c == '/' || (c == '\\' && kind.isSpecial)

/-- Puts the segments of a text at the end of a path; `segment` holds the characters read since the
last slash, the last first. -/
def PathState.addAll (kind : SchemeKind) : PathState → (segment : List Char) → List Char → PathState
  | s, segment, [] =>
    s.add kind (Percent.encode (Percent.allBut Percent.pathSet) segment.reverse) false
  | s, segment, c :: cs =>
    if isSlash kind c then
      addAll kind
        (s.add kind (Percent.encode (Percent.allBut Percent.pathSet) segment.reverse) true) [] cs
    else addAll kind s (c :: segment) cs

/-- The path of a file begins with one slash. -/
def PathState.close (kind : SchemeKind) (s : PathState) : PathState :=
  if kind = .file then { s with path := '/' :: s.path.dropWhile (· = '/') } else s

/-- A path after which the segments of a text stand. -/
def extendPath (kind : SchemeKind) (path text : List Char) : PathState :=
  (PathState.addAll kind ⟨path, false⟩ [] text).close kind

end RestDispatch.Url
