import RestDispatch.Proofs.Declaration.Extension
import RestDispatch.Proofs.Declaration.Quotation

/-!
# Tokens that are printed

The texts of tokens are printed with single spaces between them. `tokenize_spaced` says that a group
is read back from its texts if each token within is, and `readsBack_literal` that the string literal
of a text is, whatever the text. A space before each text begins the pieces that the reader takes
one by one; marks that stood together are read apart.
-/

namespace RestDispatch.Declaration

open Token

/-- The characters of texts, with a space before each. -/
def spacedChars (texts : List String) : List Char := texts.flatMap fun s => ' ' :: s.toList

@[simp] theorem spacedChars_nil : spacedChars [] = [] := rfl

@[simp] theorem spacedChars_cons (s : String) (texts : List String) :
    spacedChars (s :: texts) = ' ' :: (s.toList ++ spacedChars texts) := rfl

@[simp] theorem spacedChars_append (texts more : List String) :
    spacedChars (texts ++ more) = spacedChars texts ++ spacedChars more :=
  List.flatMap_append

theorem spacedChars_cases (texts : List String) :
    spacedChars texts = [] ∨ ∃ cs, spacedChars texts = ' ' :: cs := by
  cases texts with
  | nil => exact .inl rfl
  | cons s texts => exact .inr ⟨_, rfl⟩

/-- A character that a token which is no group can begin with, and no comment. -/
def StartsLeaf (c : Char) : Prop :=
  isGap c = false ∧ c ≠ '/' ∧ openingOf? c = none ∧ closingOf? c = none

instance (c : Char) : Decidable (StartsLeaf c) := inferInstanceAs (Decidable (_ ∧ _ ∧ _ ∧ _))

/-- Tokens that are read back from their texts between spaces. -/
inductive ReadsBack : Token → Prop
  | leaf {t : Token} {s : String} {c : Char} {cs : List Char} (ht : t.texts = [s])
      (hs : s.toList = c :: cs) (hc : StartsLeaf c)
      (h : ∀ rest, readLeaf? (c :: (cs ++ ' ' :: rest)) = some (t, ' ' :: rest)) : ReadsBack t
  | group (d : Delimiter) {content : List Token} (h : ∀ t ∈ content, ReadsBack t) :
      ReadsBack (.group d content)

/-! ### Single steps -/

theorem dropWhile_isGap {c : Char} (hc : isGap c = false) (cs : List Char) :
    (' ' :: c :: cs).dropWhile isGap = c :: cs := by
  rw [List.dropWhile_cons_of_pos (by decide), List.dropWhile_cons_of_neg (by simp [hc])]

theorem readGap_of_ne {c : Char} (hc : c ≠ '/') (cs : List Char) : readGap (c :: cs) = .none := by
  unfold readGap
  split
  · next h => exact absurd (List.cons.inj h).1 hc
  · next h => exact absurd (List.cons.inj h).1 hc
  · rfl

theorem readTokens_leaf {c : Char} {cs rest : List Char} {t : Token} (hc : StartsLeaf c)
    (h : readLeaf? (c :: cs) = some (t, rest)) (n : Nat) :
    readTokens (n + 1) (' ' :: c :: cs) = (readTokens n rest).map fun r => (t :: r.1, r.2) := by
  obtain ⟨hgap, hslash, hopening, hclosing⟩ := hc
  simp only [readTokens, dropWhile_isGap hgap, readGap_of_ne hslash, hopening, hclosing, h]
  rfl

theorem readTokens_closing (d : Delimiter) (n : Nat) (rest : List Char) :
    readTokens (n + 1) (' ' :: (d.closing.toList ++ rest)) =
      some ([], d.closing.toList ++ rest) := by
  cases d <;> rfl

/-- What stands between delimiters is read first, and then what follows them. -/
theorem readTokens_opening {d : Delimiter} {n : Nat} {cs rest : List Char} {content : List Token}
    (h : readTokens n cs = some (content, d.closing.toList ++ rest)) :
    readTokens (n + 1) (' ' :: (d.opening.toList ++ cs)) =
      (readTokens n rest).map fun r => (.group d content :: r.1, r.2) := by
  obtain ⟨c, hc, hgap, hslash, hopening⟩ : ∃ c, d.opening.toList = [c] ∧ isGap c = false ∧
      c ≠ '/' ∧ openingOf? c = some d := by
    cases d <;> exact ⟨_, rfl, by decide, by decide, rfl⟩
  obtain ⟨e, he, hclosing⟩ : ∃ e, d.closing.toList = [e] ∧ closingOf? e = some d := by
    cases d <;> exact ⟨_, rfl, rfl⟩
  rw [he, List.singleton_append] at h
  rw [hc, List.singleton_append]
  simp only [readTokens, dropWhile_isGap hgap, readGap_of_ne hslash, hopening, h, hclosing, if_true]

/-! ### Lists of tokens -/

/-- Whether a token is read in one step from its texts between spaces. -/
def Steps (t : Token) : Prop := ∀ n rest, t.weight ≤ n →
  readTokens (n + 1) (spacedChars t.texts ++ ' ' :: rest) =
    (readTokens n (' ' :: rest)).map fun r => (t :: r.1, r.2)

/-- Tokens that are read one by one are read up to the delimiter that closes them. -/
theorem readTokens_of_steps {ts : List Token} (h : ∀ t ∈ ts, Steps t) {n : Nat}
    (hn : weightOfList ts < n) (d : Delimiter) (rest : List Char) :
    readTokens n (spacedChars (textsOfList ts) ++ ' ' :: (d.closing.toList ++ rest)) =
      some (ts, d.closing.toList ++ rest) := by
  induction ts generalizing n with
  | nil =>
    obtain ⟨n, rfl⟩ := Nat.exists_eq_succ_of_ne_zero (Nat.ne_of_gt hn)
    exact readTokens_closing d n rest
  | cons t ts ih =>
    obtain ⟨ht, hts⟩ := List.forall_mem_cons.1 h
    obtain ⟨n, rfl⟩ := Nat.exists_eq_succ_of_ne_zero (Nat.ne_of_gt (Nat.zero_lt_of_lt hn))
    have hpos := t.one_le_weight
    rw [weightOfList_cons] at hn
    have hrest := ih hts (n := n) (by omega)
    -- what follows the first token begins with a space as well, be it another token or the end
    obtain ⟨more, hmore⟩ : ∃ more, spacedChars (textsOfList ts) ++
        ' ' :: (d.closing.toList ++ rest) = ' ' :: more := by
      cases spacedChars_cases (textsOfList ts) with
      | inl h => exact ⟨_, by rw [h, List.nil_append]⟩
      | inr h =>
        obtain ⟨cs, hcs⟩ := h
        exact ⟨_, by rw [hcs, List.cons_append]⟩
    rw [hmore] at hrest
    rw [textsOfList, spacedChars_append, List.append_assoc, hmore, ht n more (by omega), hrest]
    rfl

theorem ReadsBack.steps {t : Token} (h : ReadsBack t) : Steps t := by
  induction h with
  | leaf ht hs hc h =>
    intro n rest _
    rw [ht, spacedChars_cons, hs, spacedChars_nil, List.append_nil]
    exact readTokens_leaf hc (h rest) n
  | group d _ ih =>
    intro n rest hn
    rw [weight_group] at hn
    have hcontent := readTokens_of_steps ih (n := n) (by omega) d (' ' :: rest)
    have hstep := readTokens_opening hcontent
    rw [← hstep, texts]
    simp


/-! ### Texts as a whole -/

mutual

/-- The texts of a token have characters enough for the steps that reading it takes. -/
theorem weight_le_length : ∀ t : Token, t.weight ≤ (spacedChars t.texts).length
  | .word _ | .mark _ _ | .literal _ _ | .lifetime _ => by simp [weight, texts]
  | .group d content => by
    have h := weightOfList_le_length content
    simp only [weight_group, texts, List.cons_append, spacedChars_cons, spacedChars_append,
      spacedChars_nil, List.length_cons, List.length_append, List.length_nil]
    omega

theorem weightOfList_le_length :
    ∀ ts : List Token, weightOfList ts ≤ (spacedChars (textsOfList ts)).length
  | [] => Nat.zero_le _
  | t :: ts => by
    have h := weight_le_length t
    have hs := weightOfList_le_length ts
    rw [weightOfList_cons, textsOfList, spacedChars_append, List.length_append]
    omega

end

theorem toList_spaced (s : String) (texts : List String) :
    (spaced (s :: texts)).toList = s.toList ++ spacedChars texts := by
  induction texts generalizing s with
  | nil => simp [spaced]
  | cons s' texts ih =>
    have h := ih s'
    rw [spaced, String.toList_intercalate] at h ⊢
    rw [List.map_cons] at h
    rw [List.map_cons, List.map_cons, List.intercalate_cons_cons, h]
    simp

theorem readTokens_space (n : Nat) (cs : List Char) :
    readTokens (n + 1) (' ' :: cs) = readTokens (n + 1) cs := by
  have hdrop : (' ' :: cs).dropWhile isGap = cs.dropWhile isGap :=
    List.dropWhile_cons_of_pos (by decide)
  rw [readTokens, readTokens, hdrop]

/-- **A group is read from its texts**, if the tokens in it are. -/
theorem tokenize_spaced {d : Delimiter} {content : List Token} (h : ∀ t ∈ content, ReadsBack t) :
    tokenize (spaced (Token.texts (.group d content))) = some [.group d content] := by
  have htext : (spaced (Token.texts (.group d content))).toList =
      d.opening.toList ++
        (spacedChars (textsOfList content) ++ ' ' :: (d.closing.toList ++ [])) := by
    rw [texts, List.cons_append, toList_spaced, spacedChars_append, spacedChars_cons,
      spacedChars_nil]
  have hweight := weightOfList_le_length content
  have hmark (cs : List Char) : dropByteOrderMark (d.opening.toList ++ cs) =
      d.opening.toList ++ cs := by
    cases d <;> rfl
  have hread (n : Nat) (hn : weightOfList content < n) :=
    readTokens_opening (readTokens_of_steps (fun t ht => (h t ht).steps) hn d [])
  rw [tokenize, htext, hmark, ← readTokens_space, hread]
  · rfl
  · simp only [List.length_append]
    omega

/-! ### Tokens without gaps in them -/

theorem readsBack_literal (s : String) : ReadsBack (.literal (literalText s) (.text s)) := by
  refine .leaf rfl (toList_literalText s) (by decide) fun rest => ?_
  have hread := readQuoted?_literalText s rest
  rw [toList_literalText, List.cons_append] at hread
  have hsource : ('"' :: ((literalChars s.toList ++ ['"']) ++ ' ' :: rest)).take
      (('"' :: ((literalChars s.toList ++ ['"']) ++ ' ' :: rest)).length - (' ' :: rest).length) =
        '"' :: (literalChars s.toList ++ ['"']) := by
    rw [← List.cons_append, List.length_append, Nat.add_sub_cancel, List.take_left]
  rw [readLeaf?, hread]
  show some (Token.literal (String.ofList (List.take _ _)) (.text s), ' ' :: rest) = _
  rw [hsource]
  rfl

theorem readsBack_word : ∀ w ∈ ["let", "mut", "query", "routekit", "QueryMap", "new", "insert",
    "to_string"], ReadsBack (.word w) := by
  simp only [List.forall_mem_cons]
  refine ⟨?_, ?_, ?_, ?_, ?_, ?_, ?_, ?_, by simp⟩
  all_goals exact .leaf rfl rfl (by decide) fun rest => rfl

theorem readsBack_mark : ∀ c ∈ ['=', ':', ';', '.', ','], ReadsBack (.mark c false) := by
  simp only [List.forall_mem_cons]
  refine ⟨?_, ?_, ?_, ?_, ?_, by simp⟩
  all_goals exact .leaf rfl rfl (by decide) fun rest => rfl

end RestDispatch.Declaration
