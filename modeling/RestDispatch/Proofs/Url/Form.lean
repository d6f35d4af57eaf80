import RestDispatch.Proofs.Url.Percent
import RestDispatch.Url.Form

/-!
# Form queries and back

A form query is read part by part, where an ampersand ends a part. No part that was written holds
an ampersand, and no name an equals sign, so what was put behind a query is read as what it was, and
leaves what stood there alone (`decode_append`).
-/

namespace RestDispatch

/-- The parts between marks, as the library splits them. -/
theorem Address.splitAt_eq_splitOn (mark : Char) (cs : List Char) :
    splitAt mark cs = cs.splitOn mark := by
  induction cs with
  | nil => rfl
  | cons c cs ih =>
    obtain ⟨part, parts, hs⟩ := List.exists_cons_of_ne_nil (List.splitOn_ne_nil mark cs)
    rw [splitAt, ih, hs, List.splitOn_cons_eq_if_modifyHead, hs]
    simp

namespace Form

/-! ### Names and values -/

/-- One character of a name or a value. -/
theorem encodePart_cons (c : Char) (cs : List Char) :
    encodePart (String.ofList (c :: cs)) =
      (if c = ' ' then ['+'] else Percent.encode isPlain [c]) ++ encodePart (String.ofList cs) := by
  simp [encodePart]

/-- A character of a written part stands for itself, is the plus sign of a space or belongs to a
percent-encoded octet. -/
theorem mem_encodePart {s : String} {d : Char} (h : d ∈ encodePart s) :
    isPlain d = true ∨ d = '+' ∨ d ∈ Percent.octetChars := by
  obtain ⟨c, -, hd⟩ := List.mem_flatMap.1 h
  split at hd
  · exact .inr (.inl (List.mem_singleton.1 hd))
  · rcases Percent.mem_encode hd with ⟨-, -, hp⟩ | ho
    · exact .inl hp
    · exact .inr (.inr ho)

theorem amp_notMem_encodePart (s : String) : '&' ∉ encodePart s := fun h =>
  absurd (mem_encodePart h) (by decide)

theorem equals_notMem_encodePart (s : String) : '=' ∉ encodePart s := fun h =>
  absurd (mem_encodePart h) (by decide)

/-- Plus signs read as spaces. -/
def spaced (cs : List Char) : List Char := cs.map fun c => if c = '+' then ' ' else c

theorem decode_spaced_char (c : Char) (rest : Bytes) :
    Percent.decode (Utf8.encodeList
        (spaced (if c = ' ' then ['+'] else Percent.encode isPlain [c])) ++ rest) =
      String.utf8EncodeChar c ++ Percent.decode rest := by
  split
  · next hc =>
    have hspace : Utf8.encodeList (spaced ['+']) = String.utf8EncodeChar ' ' := by decide
    have hone : String.utf8EncodeChar ' ' = [0x20] := by decide
    rw [hc, hspace, hone, List.singleton_append, Percent.decode_cons_of_ne (by decide),
      List.singleton_append]
  · -- plus signs stand for spaces alone: none is plain, and no octet is written with one
    have hplain : spaced (Percent.encode isPlain [c]) = Percent.encode isPlain [c] := by
      have hid : ∀ d ∈ Percent.encode isPlain [c], (if d = '+' then ' ' else d) = d := by
        intro d hd
        refine if_neg ?_
        rintro rfl
        rcases Percent.mem_encode hd with ⟨-, -, hp⟩ | ho
        · exact absurd hp (by decide)
        · exact absurd ho (by decide)
      exact (List.map_congr_left hid).trans (List.map_id' _)
    rw [hplain, Percent.decode_encode_append (by decide), Utf8.encodeList_cons,
      Utf8.encodeList_nil, List.append_nil]

theorem decode_spaced (cs : List Char) :
    Percent.decode (Utf8.encodeList (spaced (encodePart (String.ofList cs)))) =
      Utf8.encodeList cs := by
  induction cs with
  | nil => rfl
  | cons c cs ih =>
    rw [encodePart_cons, spaced, List.map_append, Utf8.encodeList_append]
    exact (decode_spaced_char c _).trans (congrArg _ ih)

/-- A name or a value is read as what was written. -/
theorem decodePart_encodePart (s : String) : decodePart (encodePart s) = s := by
  have h := decode_spaced s.toList
  rw [String.ofList_toList] at h
  rw [decodePart, ← spaced, h]
  exact Utf8.decodeLossy_encode s

/-! ### Pairs -/

theorem decodePair_encodePair (p : String × String) : decodePair (encodePair p) = p := by
  have hname : (encodePair p).takeWhile (· ≠ '=') = encodePart p.1 := by
    have hall : ∀ c ∈ encodePart p.1, decide (c ≠ '=') = true := fun c hc =>
      decide_eq_true fun e => equals_notMem_encodePart p.1 (e ▸ hc)
    rw [encodePair, List.takeWhile_append_of_pos hall]
    simp
  have hvalue : (encodePair p).drop ((encodePart p.1).length + 1) = encodePart p.2 := by
    simp [encodePair]
  rw [decodePair, hname]
  simp only [hvalue, decodePart_encodePart]

theorem amp_notMem_encodePair (p : String × String) : '&' ∉ encodePair p := by
  rw [encodePair, List.mem_append, List.mem_cons]
  rintro (h | h | h)
  · exact amp_notMem_encodePart p.1 h
  · exact absurd h (by decide)
  · exact amp_notMem_encodePart p.2 h

/-- A pair by itself is read as that pair. -/
theorem decode_encodePair (p : String × String) : decode (encodePair p) = [p] := by
  have hne : encodePair p ≠ [] := by simp [encodePair]
  rw [decode, Address.splitAt_eq_splitOn, List.splitOn_eq_singleton (amp_notMem_encodePair p),
    List.filter_cons_of_pos (by simpa using hne), List.filter_nil, List.map_singleton,
    decodePair_encodePair]

/-- What stands on the two sides of an ampersand is read apart. -/
theorem decode_append_cons (cs ds : List Char) :
    decode (cs ++ '&' :: ds) = decode cs ++ decode ds := by
  simp only [decode, Address.splitAt_eq_splitOn, List.splitOn_append_cons_self,
    List.filter_append, List.map_append]

/-- Pairs put behind a query, also an empty one or one that ends in an ampersand, are read behind
the pairs of that query. -/
theorem decode_append (query : List Char) (pairs : List (String × String)) :
    decode (append query pairs) = decode query ++ pairs := by
  induction pairs generalizing query with
  | nil => simp [append]
  | cons p ps ih =>
    rw [append, ih]
    -- an empty query is given no ampersand, and any other query one more
    by_cases hq : query = []
    · subst hq
      have hnil : decode [] = [] := by decide
      rw [if_pos rfl, List.nil_append, decode_encodePair, hnil]
      rfl
    · rw [if_neg hq, List.append_assoc, List.singleton_append, decode_append_cons,
        decode_encodePair, List.append_assoc, List.singleton_append]

end Form
end RestDispatch
