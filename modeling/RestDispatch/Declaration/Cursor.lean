import RestDispatch.Declaration.Fault
import RestDispatch.Declaration.Literal

/-!
# Cursors over tokens

A reader takes tokens from the head of a list. A group is read from within: tokens that are left
over in it are no fault at once, since the fault is reported only when nothing else is wrong; the
cursor remembers the first such group.
-/

namespace RestDispatch.Declaration

/-- The tokens that have not been read, and the delimiter of the first group with tokens left over.
-/
structure Cursor where
  tokens : List Token
  stray : Option Delimiter

/-- Reads from the head of a list of tokens. What is left of them are the last ones, and the cursor
does not forget a group with tokens left over. -/
structure Reader (α : Type) where
  run : Cursor → Except DeclarationFault (α × Cursor)
  suffix : ∀ {c x}, run c = .ok x → x.2.tokens <:+ c.tokens
  stray : ∀ {c x}, run c = .ok x → x.2.stray = none → c.stray = none

namespace Reader

instance : Monad Reader where
  pure a :=
    { run := fun c => .ok (a, c)
      suffix := by
        rintro c _ ⟨⟩
        exact List.suffix_refl _
      stray := by
        rintro c _ ⟨⟩
        exact id }
  bind p f :=
    { run := fun c =>
        match p.run c with
        | .error fault => .error fault
        | .ok (a, c') => (f a).run c'
      suffix := by
        intro c x h
        split at h
        · cases h
        · next hp => exact ((f _).suffix h).trans (p.suffix hp)
      stray := by
        intro c x h hx
        split at h
        · cases h
        · next hp => exact p.stray hp ((f _).stray h hx) }

instance : MonadExcept DeclarationFault Reader where
  throw fault := { run := fun _ => .error fault, suffix := nofun, stray := nofun }
  tryCatch p handle :=
    { run := fun c =>
        match p.run c with
        | .error fault => (handle fault).run c
        | .ok x => .ok x
      suffix := by
        intro c x h
        split at h
        · exact (handle _).suffix h
        · next hp =>
          cases h
          exact p.suffix hp
      stray := by
        intro c x h
        split at h
        · exact (handle _).stray h
        · next hp =>
          cases h
          exact p.stray hp }

/-- The tokens that have not been read. -/
def peek : Reader (List Token) where
  run c := .ok (c.tokens, c)
  suffix := by
    rintro c _ ⟨⟩
    exact List.suffix_refl _
  stray := by
    rintro c _ ⟨⟩
    exact id

/-- Goes on with the last of the tokens. -/
def replace (f : List Token → List Token) (h : ∀ ts, f ts <:+ ts) : Reader Unit where
  run c := .ok ((), { c with tokens := f c.tokens })
  suffix := by
    rintro c _ ⟨⟩
    exact h _
  stray := by
    rintro c _ ⟨⟩
    exact id

/-- Passes over tokens. -/
def advance (n : Nat) : Reader Unit := replace (List.drop n) (List.drop_suffix n)

/-- Passes over all tokens. -/
def skipAll : Reader Unit := replace (fun _ => []) fun _ => List.nil_suffix

/-- Refuses the next token. -/
def refuse {α : Type} (what : String) : Reader α := do
  throw (.expected what (← peek).isEmpty)

/-- Passes over a token that satisfies `p`, if one comes next. -/
def skipIf (p : Token → Bool) : Reader Unit := do
  if startsWith p (← peek) then advance 1 else return

/-- Passes over a given word. -/
def skipWord (w : String) : Reader Unit := do
  if startsWithWord w (← peek) then advance 1 else refuse ("`" ++ w ++ "`")

/-- Passes over a group. -/
def skipGroup (d : Delimiter) : Reader Unit := do
  if startsWithGroup d (← peek) then advance 1 else refuse d.description

/-- Reads a given mark. -/
def mark (c : Char) : Reader Unit := do
  if startsWithMark c (← peek) then advance 1 else throw (.expectedMark c)

/-- Reads a given mark, and gives it. -/
def takeMark (c : Char) : Reader Token := do
  let ts ← peek
  mark c
  return ts.headD (.mark c false)

/-- Reads a group, all of whose tokens `p` is meant to read. -/
def within {α : Type} (d : Delimiter) (p : Reader α) : Reader α where
  run c :=
    match c.tokens with
    | .group e content :: rest =>
      if e = d then
        match p.run ⟨content, c.stray⟩ with
        | .error fault => .error fault
        | .ok (a, inner) =>
          .ok (a, ⟨rest, inner.stray.or (if inner.tokens.isEmpty then none else some d)⟩)
      else .error (.expected d.description false)
    | ts => .error (.expected d.description ts.isEmpty)
  suffix := by
    intro c x h
    split at h
    · next hc =>
      split at h
      · split at h
        · cases h
        · cases h
          rw [hc]
          exact List.suffix_cons _ _
      · cases h
    · cases h
  stray := by
    intro c x h hx
    split at h
    · split at h
      · split at h
        · cases h
        · next hp =>
          cases h
          have hs := p.stray hp (Option.or_eq_none_iff.1 hx).1
          exact hs
      · cases h
    · cases h

/-- Reads with `p`, and gives the tokens that it has read besides its result. -/
def consumed {α : Type} (p : Reader α) : Reader (α × List Token) := do
  let before ← peek
  let a ← p
  let after ← peek
  return (a, before.take (before.length - after.length))

/-- Reads a name, which no keyword is. -/
def name : Reader String := do
  match ← peek with
  | .word w :: _ => if isName w then advance 1; return w else throw (.keywordAsName w)
  | _ => refuse "identifier"

/-- Reads a word, be it a keyword or not. -/
def anyWord : Reader String := do
  match ← peek with
  | .word w :: _ => advance 1; return w
  | _ => refuse "identifier"

/-- Reads a literal. A minus sign before a number is part of it. -/
def literal : Reader Literal := do
  match ← peek with
  | .literal s k :: _ => advance 1; return ⟨k, [.literal s k]⟩
  | .word w :: _ =>
    match truthOf? w with
    | some b => advance 1; return ⟨.boolean b, [.word w]⟩
    | none => refuse "literal"
  | .mark c j :: .literal s k :: _ =>
    match k.negatedBy? c with
    | some k' => advance 2; return ⟨k', [.mark c j, .literal s k]⟩
    | none => refuse "literal"
  | _ => refuse "literal"

/-- Reads a string literal. -/
def text : Reader StringLiteral := do
  match ← peek with
  | .literal s (.text value) :: _ => advance 1; return ⟨value, .literal s (.text value)⟩
  | _ => refuse "string literal"

end Reader
end RestDispatch.Declaration
