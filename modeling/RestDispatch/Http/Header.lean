import RestDispatch.Error

/-!
# Headers

Names and values in the head of a message. A name is a token, told without regard to case and kept
in lower case; a value has no control character but the tab. `Header.fill` and `Header.insert` are
the two ways in which headers that have names in common are put together.
-/

namespace RestDispatch

/-- A header. -/
structure Header where
  name : String
  value : String
  deriving DecidableEq

/-- Why a name and a value are no header. -/
inductive HeaderFault
  | invalidName
  | invalidValue
  deriving DecidableEq

namespace HeaderFault

/-- The wording of a fault. -/
def message : HeaderFault → String
  | .invalidName => "invalid header name: invalid HTTP header name"
  | .invalidValue => "invalid header value: failed to parse header value"

/-- The error of a call with such a header. -/
def error (f : HeaderFault) : ApiError := .client (.connection f.message)

end HeaderFault

namespace Header

/-- A character of a name. -/
def isTokenChar (c : Char) : Bool :=
  c.isAlphanum || "!#$%&\x27*+-.^_\x60|~".toList.contains c

/-- A character of a value. -/
def isValueChar (c : Char) : Bool := c == '\t' || (0x20 ≤ c.toNat && c != '\x7f')

/-- The longest name. -/
def longestName : Nat := 65535

/-- A name in lower case. -/
def fold (name : String) : String := String.ofList (name.toList.map Char.toLower)

/-- A name and a value as a header; the name is looked at first. -/
def ofPair (p : String × String) : Except HeaderFault Header :=
  let cs := p.1.toList
  if cs = [] ∨ longestName < cs.length ∨ !cs.all isTokenChar then .error .invalidName
  else if !p.2.toList.all isValueChar then .error .invalidValue
  else .ok ⟨fold p.1, p.2⟩

/-- Pairs as headers; the first that is none decides. -/
def ofPairs : List (String × String) → Except HeaderFault (List Header)
  | [] => .ok []
  | p :: ps => do
    let h ← ofPair p
    let hs ← ofPairs ps
    return h :: hs

/-- Whether a header of a name is among some. -/
def has (name : String) (hs : List Header) : Bool := hs.any (·.name == name)

/-- The values under a name. -/
def values (name : String) (hs : List Header) : List String :=
  (hs.filter (·.name == name)).map (·.value)

/-- Puts a header in the place of those that have its name. -/
def insert (h : Header) : List Header → List Header
  | [] => [h]
  | g :: gs => if g.name = h.name then h :: gs.filter (·.name != h.name) else g :: insert h gs

/-- Puts in the headers of whose names there are none yet. -/
def fill (hs defaults : List Header) : List Header :=
  hs ++ defaults.filter fun d => !has d.name hs

@[simp] theorem values_nil (name : String) : values name [] = [] := rfl

@[simp] theorem values_append (name : String) (gs hs : List Header) :
    values name (gs ++ hs) = values name gs ++ values name hs := by
  simp [values]

@[simp] theorem values_singleton (name : String) (h : Header) :
    values name [h] = if h.name = name then [h.value] else [] := by
  by_cases hn : h.name = name <;> simp [values, hn]

/-- There is a header of a name exactly if there is a value under it. -/
theorem has_eq_true_iff {name : String} {hs : List Header} :
    has name hs = true ↔ values name hs ≠ [] := by
  simp [has, values]

/-- Headers that are put in show only where nothing has their name. -/
theorem values_fill (name : String) (hs defaults : List Header) :
    values name (fill hs defaults) =
      values name hs ++ if has name hs then [] else values name defaults := by
  have hname : ∀ d ∈ defaults, (d.name == name && !has d.name hs) =
      (d.name == name && !has name hs) := by
    intro d _
    cases hd : d.name == name with
    | false => rfl
    | true => rw [eq_of_beq hd]
  have hrest : values name (defaults.filter fun d => !has d.name hs) =
      if has name hs then [] else values name defaults := by
    rw [values, List.filter_filter, List.filter_congr hname]
    split
    · next h => simp [h]
    · next h => simp [h, values]
  rw [fill, values_append, hrest]

end Header
end RestDispatch
