/-!
# Blank and control characters

The Unicode property `White_Space` and the general category `Cc`, as predicates on characters, and
the removal of blanks from the ends of a text. `trimBlank_eq_self_iff` says when there is
nothing to remove.
-/

namespace RestDispatch.Text

/-- A character with the Unicode property `White_Space`. -/
def isBlank (c : Char) : Bool :=
  let n := c.toNat
  (9 ≤ n && n ≤ 13) || n == 0x20 || n == 0x85 || n == 0xA0 || n == 0x1680 ||
    (0x2000 ≤ n && n ≤ 0x200A) || n == 0x2028 || n == 0x2029 || n == 0x202F || n == 0x205F ||
    n == 0x3000

/-- A character of the general category `Cc`: the C0 and C1 controls and DELETE. -/
def isControl (c : Char) : Bool :=
  let n := c.toNat
  n < 0x20 || (0x7F ≤ n && n ≤ 0x9F)

/-- A text without the blanks that it ends with. -/
def dropBlankEnd (cs : List Char) : List Char :=
  (cs.reverse.dropWhile isBlank).reverse

/-- A text without the blanks at its two ends. -/
def trimBlank (cs : List Char) : List Char :=
  dropBlankEnd (cs.dropWhile isBlank)

@[simp] theorem trimBlank_nil : trimBlank [] = [] := rfl

/-- Nothing leaves a front that does not begin with a member of the class. -/
theorem dropWhile_eq_self_iff {α : Type _} {p : α → Bool} {l : List α} :
    l.dropWhile p = l ↔ ∀ a ∈ l.head?, p a = false := by
  cases l with
  | nil => simp
  | cons a as =>
    cases h : p a with
    | false => simp [h]
    | true =>
      have hl := (List.dropWhile_suffix p (l := as)).length_le
      have hne : as.dropWhile p ≠ a :: as := fun e =>
        Nat.not_succ_le_self _ (List.length_cons ▸ e ▸ hl)
      simp [h, hne]

/-- A text stays as it is when it neither begins nor ends with a blank, and only then. -/
theorem trimBlank_eq_self_iff {cs : List Char} :
    trimBlank cs = cs ↔
      (∀ c ∈ cs.head?, isBlank c = false) ∧ ∀ c ∈ cs.getLast?, isBlank c = false := by
  have hend (ds : List Char) :
      dropBlankEnd ds = ds ↔ ∀ c ∈ ds.getLast?, isBlank c = false := by
    rw [dropBlankEnd, List.reverse_eq_iff, dropWhile_eq_self_iff, List.head?_reverse]
  have hle : (dropBlankEnd (cs.dropWhile isBlank)).length ≤ (cs.dropWhile isBlank).length := by
    simpa [dropBlankEnd] using
      (List.dropWhile_suffix isBlank (l := (cs.dropWhile isBlank).reverse)).length_le
  constructor
  · intro h
    have hfront : cs.dropWhile isBlank = cs :=
      (List.dropWhile_suffix isBlank).eq_of_length_le (by rwa [← trimBlank, h] at hle)
    exact ⟨dropWhile_eq_self_iff.1 hfront, (hend cs).1 (by simpa [trimBlank, hfront] using h)⟩
  · rintro ⟨hfront, hlast⟩
    rw [trimBlank, dropWhile_eq_self_iff.2 hfront, (hend cs).2 hlast]

end RestDispatch.Text
