import RestDispatch.Proofs.Text.Sequence

/-!
# The first fault of octets

Octets that are not well formed have a longest well-formed front, and no sequence stands after it.
Either the octets end there inside a sequence, or else the maximal subpart of what is left is at
fault: the longest part with which a sequence begins, or one octet if there is none. `HasFault` says
so without the reader, `decode_eq_error_iff` that the reader tells exactly that fault, and
`decode_eq_ok_iff` that it accepts nothing but encodings.
-/

namespace RestDispatch.Utf8

/-! ### Faults -/

/-- The longest well-formed octets at the head of others. -/
structure LongestFront (front bs : Bytes) : Prop where
  head : front <+: bs
  wellFormed : WellFormed front
  longest : ∀ q, q <+: bs → WellFormed q → q.length ≤ front.length

/-- The longest octets at the head of others with which a sequence begins, and at least one. -/
structure MaximalSubpart (p bs : Bytes) : Prop where
  head : p <+: bs
  ne_nil : p ≠ []
  begins : p.length = 1 ∨ Begins p
  maximal : ∀ q, q <+: bs → Begins q → q.length ≤ p.length

/-- What is wrong with octets at whose head there is no sequence, if so many stand in front. -/
inductive FaultAt (index : Nat) : Bytes → Fault → Prop
  | invalid {p rest : Bytes} (hp : MaximalSubpart p rest) (hb : ¬ Begins rest) :
      FaultAt index rest (.invalid p.length index)
  | incomplete {rest : Bytes} (hne : rest ≠ []) (hb : Begins rest) :
      FaultAt index rest (.incomplete index)

/-- What is wrong with octets after their longest well-formed front. -/
def HasFault (bs : Bytes) (f : Fault) : Prop :=
  ∃ front rest, front ++ rest = bs ∧ LongestFront front bs ∧ FaultAt front.length rest f

section Subparts

variable {p q bs : Bytes}

/-- Octets with which no sequence begins are longer than any such octets at the same head. -/
theorem Begins.lt_length (hq : Begins q) (hp : ¬ Begins p) (hqb : q <+: bs) (hpb : p <+: bs) :
    q.length < p.length := by
  by_contra hle
  obtain ⟨r, rfl⟩ := List.prefix_of_prefix_length_le hpb hqb (Nat.le_of_not_lt hle)
  exact hp hq.of_append

theorem MaximalSubpart.pos (h : MaximalSubpart p bs) : 1 ≤ p.length :=
  List.length_pos_iff.2 h.ne_nil

theorem MaximalSubpart.length_le (h : MaximalSubpart p bs) : p.length ≤ 3 := by
  rcases h.begins with hone | hb
  · omega
  · exact hb.length_le

theorem MaximalSubpart.le_length (hp : MaximalSubpart p bs) (hq : MaximalSubpart q bs) :
    p.length ≤ q.length := by
  rcases hp.begins with hone | hb
  · exact hone ▸ hq.pos
  · exact hq.maximal p hp.head hb

end Subparts

theorem FaultAt.unique {index : Nat} {rest : Bytes} {f g : Fault} (hf : FaultAt index rest f)
    (hg : FaultAt index rest g) : f = g := by
  cases hf with
  | invalid hp hb =>
    cases hg with
    | invalid hq => rw [Nat.le_antisymm (hp.le_length hq) (hq.le_length hp)]
    | incomplete _ hb' => exact absurd hb' hb
  | incomplete _ hb =>
    cases hg with
    | invalid _ hb' => exact absurd hb hb'
    | incomplete => rfl

theorem LongestFront.unique {front front' bs : Bytes} (h : LongestFront front bs)
    (h' : LongestFront front' bs) : front = front' :=
  (List.prefix_of_prefix_length_le h.head h'.head
      (h'.longest front h.head h.wellFormed)).eq_of_length_le
    (h.longest front' h'.head h'.wellFormed)

/-- Octets have one fault at most. -/
theorem HasFault.unique {bs : Bytes} {f g : Fault} (hf : HasFault bs f) (hg : HasFault bs g) :
    f = g := by
  obtain ⟨front, rest, rfl, hfront, hfault⟩ := hf
  obtain ⟨front', rest', happend, hfront', hfault'⟩ := hg
  obtain rfl := hfront.unique hfront'
  obtain rfl := List.append_cancel_left happend
  exact hfault.unique hfault'

/-! ### Well-formed octets as encodings -/

theorem wellFormed_encodeList (cs : List Char) : WellFormed (encodeList cs) := by
  induction cs with
  | nil => exact .nil
  | cons c cs ih => exact .append (isSequence_encode c) ih

theorem wellFormed_iff_exists_encodeList {bs : Bytes} :
    WellFormed bs ↔ ∃ cs, encodeList cs = bs := by
  constructor
  · intro h
    induction h with
    | nil => exact ⟨[], rfl⟩
    | append hu _ ih =>
      obtain ⟨c, rfl⟩ := isSequence_iff_exists_encode.1 hu
      obtain ⟨cs, rfl⟩ := ih
      exact ⟨c :: cs, rfl⟩
  · rintro ⟨cs, rfl⟩
    exact wellFormed_encodeList cs

/-- The characters at the head of octets are told by the octets. -/
theorem utf8EncodeChar_append_inj {c d : Char} {xs ys : Bytes}
    (h : String.utf8EncodeChar c ++ xs = String.utf8EncodeChar d ++ ys) : c = d ∧ xs = ys := by
  obtain ⟨a, as, hc, hlc⟩ := exists_leading_eq_scalar c xs
  obtain ⟨b, bs, hd, hld⟩ := exists_leading_eq_scalar d ys
  obtain ⟨rfl, rfl⟩ := List.cons.inj ((hc.symm.trans h).trans hd)
  cases hlc.symm.trans hld
  exact ⟨rfl, rfl⟩

/-- Characters are the longest front of octets if no character follows them. -/
theorem longestFront_encodeList (cs : List Char) {rest : Bytes}
    (hno : ∀ u, IsSequence u → ¬ u <+: rest) :
    LongestFront (encodeList cs) (encodeList cs ++ rest) := by
  refine ⟨List.prefix_append _ _, wellFormed_encodeList cs, fun q hq hw => ?_⟩
  -- the characters of `q` are those of `cs` one by one, as far as they go
  induction cs generalizing q with
  | nil =>
    cases hw with
    | nil => exact Nat.le_refl 0
    | append hu h => exact absurd ((List.prefix_append _ _).trans hq) (hno _ hu)
  | cons c cs ih =>
    cases hw with
    | nil => exact Nat.zero_le _
    | append hu h =>
      obtain ⟨d, rfl⟩ := isSequence_iff_exists_encode.1 hu
      obtain ⟨r, hr⟩ := hq
      rw [encodeList_cons, List.append_assoc, List.append_assoc] at hr
      obtain ⟨rfl, htail⟩ := utf8EncodeChar_append_inj hr
      rw [encodeList_cons, List.length_append, List.length_append]
      exact Nat.add_le_add_left (ih _ ⟨r, htail⟩ h) _

/-! ### The head of octets -/

/-- What stands at the head of octets: a character, a maximal subpart that no sequence goes on with,
or the inside of a sequence. -/
inductive Heads : Bytes → Leading → Prop
  | scalar (c : Char) (rest : Bytes) : Heads (String.utf8EncodeChar c ++ rest) (.scalar c rest)
  | invalid {p rest : Bytes} (hp : MaximalSubpart p (p ++ rest)) (hb : ¬ Begins (p ++ rest)) :
      Heads (p ++ rest) (.invalid p.length rest)
  | incomplete {bs : Bytes} (hb : Begins bs) : Heads bs .incomplete

section Heads

variable {a b c x : UInt8} {p bs rest : Bytes}

/-- An octet with which no sequence begins is at fault alone. -/
theorem Heads.invalid_one (h : ¬ Begins [a]) : Heads (a :: rest) (.invalid 1 rest) := by
  have ha : [a] <+: a :: rest := List.prefix_append [a] rest
  refine .invalid (p := [a]) ⟨ha, List.cons_ne_nil _ _, .inl rfl, fun q hq hb => ?_⟩ fun hb => ?_
  · exact Nat.le_of_lt (hb.lt_length h hq ha)
  · exact h hb.of_append

/-- Octets with which a sequence begins are at fault if none goes on with the next octet. -/
theorem Heads.invalid_of_begins (hp : p ≠ []) (hb : Begins p) (hx : ¬ Begins (p ++ [x])) :
    Heads (p ++ x :: rest) (.invalid p.length (x :: rest)) := by
  have happend : p ++ x :: rest = p ++ [x] ++ rest := List.append_cons p x rest
  refine .invalid ⟨List.prefix_append _ _, hp, .inr hb, fun q hq hbq => ?_⟩ fun hbegins => ?_
  · have hlt := hbq.lt_length hx hq (happend ▸ List.prefix_append (p ++ [x]) rest)
    rw [List.length_append] at hlt
    exact Nat.le_of_lt_succ hlt
  · rw [happend] at hbegins
    exact hx hbegins.of_append

theorem heads_leadingTwo (ha : 0xC2 ≤ a.toNat ∧ a.toNat ≤ 0xDF)
    (hno : ∀ u, Layout u → ¬ u <+: a :: bs) : Heads (a :: bs) (leadingTwo a bs) := by
  have hone : Begins [a] := begins_one.2 (by omega)
  cases bs with
  | nil => exact .incomplete hone
  | cons b bs =>
    have htrailing : ¬ isTrailing b = true := fun hb =>
      hno _ (.two ha hb) (List.prefix_append [a, b] bs)
    rw [leadingTwo, if_neg htrailing]
    refine .invalid_of_begins (List.cons_ne_nil a []) hone fun h => ?_
    rcases begins_two.1 h with h | h <;> omega

theorem heads_leadingThree (ha : 0xE0 ≤ a.toNat ∧ a.toNat ≤ 0xEF)
    (hno : ∀ u, Layout u → ¬ u <+: a :: bs) : Heads (a :: bs) (leadingThree a bs) := by
  have hone : Begins [a] := begins_one.2 (by omega)
  cases bs with
  | nil => exact .incomplete hone
  | cons b bs =>
    unfold leadingThree
    dsimp only
    split
    · next hb =>
      have htwo : Begins [a, b] := begins_two.2 (.inl ⟨ha, hb⟩)
      cases bs with
      | nil => exact .incomplete htwo
      | cons c bs =>
        have htrailing : ¬ isTrailing c = true := fun hc =>
          hno _ (.three ha hb hc) (List.prefix_append [a, b, c] bs)
        dsimp only
        rw [if_neg htrailing]
        refine .invalid_of_begins (List.cons_ne_nil a [b]) htwo fun h => ?_
        have ha' := (begins_three.1 h).1
        omega
    · next hb =>
      refine .invalid_of_begins (List.cons_ne_nil a []) hone fun h => ?_
      rcases begins_two.1 h with h | h
      · exact hb h.2
      · omega

theorem heads_leadingFour (ha : 0xF0 ≤ a.toNat ∧ a.toNat ≤ 0xF4)
    (hno : ∀ u, Layout u → ¬ u <+: a :: bs) : Heads (a :: bs) (leadingFour a bs) := by
  have hone : Begins [a] := begins_one.2 (by omega)
  cases bs with
  | nil => exact .incomplete hone
  | cons b bs =>
    unfold leadingFour
    dsimp only
    split
    · next hb =>
      have htwo : Begins [a, b] := begins_two.2 (.inr ⟨ha, hb⟩)
      cases bs with
      | nil => exact .incomplete htwo
      | cons c bs =>
        dsimp only
        split
        · next hc =>
          have hthree : Begins [a, b, c] := begins_three.2 ⟨ha, hb, hc⟩
          cases bs with
          | nil => exact .incomplete hthree
          | cons d bs =>
            have htrailing : ¬ isTrailing d = true := fun hd =>
              hno _ (.four ha hb hc hd) (List.prefix_append [a, b, c, d] bs)
            dsimp only
            rw [if_neg htrailing]
            refine .invalid_of_begins (List.cons_ne_nil a [b, c]) hthree fun h => ?_
            exact absurd h.length_le (by simp)
        · next hc =>
          refine .invalid_of_begins (List.cons_ne_nil a [b]) htwo fun h => ?_
          exact hc (begins_three.1 h).2.2
    · next hb =>
      refine .invalid_of_begins (List.cons_ne_nil a []) hone fun h => ?_
      rcases begins_two.1 h with h | h
      · omega
      · exact hb h.2

/-- The reader of the head of octets finds what stands there. -/
theorem heads_leading (a : UInt8) (bs : Bytes) : Heads (a :: bs) (leading a bs) := by
  by_cases hs : ∃ u, Layout u ∧ u <+: a :: bs
  · obtain ⟨u, hu, rest, hr⟩ := hs
    obtain ⟨c, rfl⟩ := isSequence_iff_exists_encode.1 (isSequence_iff_layout.2 hu)
    obtain ⟨a', bs', hc, hl⟩ := exists_leading_eq_scalar c rest
    obtain ⟨rfl, rfl⟩ := List.cons.inj (hc.symm.trans hr)
    rw [hl, ← hr]
    exact .scalar c rest
  have hno : ∀ u, Layout u → ¬ u <+: a :: bs := fun u hu hp => hs ⟨u, hu, hp⟩
  simp only [leading, UInt8.lt_iff_toNat_lt, UInt8.le_iff_toNat_le, UInt8.reduceToNat,
    Bool.and_eq_true, decide_eq_true_eq]
  split
  · next ha => exact absurd (List.prefix_append [a] bs) (hno _ (.one ha))
  split
  · next ha => exact heads_leadingTwo ha hno
  split
  · next ha => exact heads_leadingThree ha hno
  split
  · next ha => exact heads_leadingFour ha hno
  · exact .invalid_one fun h => by
      have ha := begins_one.1 h
      omega

theorem append_of_leading {ch : Char} (h : leading a bs = .scalar ch rest) :
    String.utf8EncodeChar ch ++ rest = a :: bs := by
  have hhead := h ▸ heads_leading a bs
  generalize a :: bs = ds at hhead
  cases hhead with
  | scalar => rfl

/-- Where the reader finds no character, there is no sequence. -/
theorem not_prefix_of_leading (h : ∀ ch rest, leading a bs ≠ .scalar ch rest) {u : Bytes}
    (hu : IsSequence u) : ¬ u <+: a :: bs := by
  rintro ⟨r, hr⟩
  obtain ⟨ch, rfl⟩ := isSequence_iff_exists_encode.1 hu
  obtain ⟨a', bs', hc, hl⟩ := exists_leading_eq_scalar ch r
  obtain ⟨rfl, rfl⟩ := List.cons.inj (hc.symm.trans hr)
  exact h ch r hl

theorem faultAt_invalid {n : Nat} (index : Nat) (h : leading a bs = .invalid n rest) :
    FaultAt index (a :: bs) (.invalid n index) := by
  have hhead := h ▸ heads_leading a bs
  generalize a :: bs = ds at hhead
  cases hhead with
  | invalid hp hb => exact .invalid hp hb

theorem faultAt_incomplete (index : Nat) (h : leading a bs = .incomplete) :
    FaultAt index (a :: bs) (.incomplete index) := by
  have hhead := h ▸ heads_leading a bs
  have hne := List.cons_ne_nil a bs
  generalize a :: bs = ds at hhead hne
  cases hhead with
  | incomplete hb => exact .incomplete hne hb

end Heads

/-! ### The reader -/

/-- The reader takes characters from octets as long as there are some, and then stops at the end of
the octets or at a fault. -/
theorem decodeFrom_cases (index : Nat) (bs : Bytes) : ∃ cs rest, encodeList cs ++ rest = bs ∧
    (rest = [] ∧ decodeFrom index bs = .ok cs ∨
      (∀ u, IsSequence u → ¬ u <+: rest) ∧ ∃ f, decodeFrom index bs = .error f ∧
        FaultAt (index + (encodeList cs).length) rest f) := by
  fun_induction decodeFrom index bs with
  | case1 index => exact ⟨[], [], rfl, .inl ⟨rfl, rfl⟩⟩
  | case2 index a bs c rest h hle ih =>
    obtain ⟨cs, after, rfl, hcs⟩ := ih
    have happend : encodeList (c :: cs) ++ after = a :: bs := by
      rw [encodeList_cons, List.append_assoc, append_of_leading h]
    refine ⟨c :: cs, after, happend, ?_⟩
    rcases hcs with ⟨rfl, hd⟩ | ⟨hno, f, hd, hf⟩
    · exact .inl ⟨rfl, by rw [hd, Except.map]⟩
    · refine .inr ⟨hno, f, by rw [hd, Except.map], ?_⟩
      rwa [encodeList_cons, List.length_append, String.length_utf8EncodeChar, ← Nat.add_assoc]
  | case3 index a bs n rest h =>
    exact ⟨[], a :: bs, rfl, .inr ⟨fun _ hu => not_prefix_of_leading (by simp [h]) hu, _, rfl,
      faultAt_invalid index h⟩⟩
  | case4 index a bs h =>
    exact ⟨[], a :: bs, rfl, .inr ⟨fun _ hu => not_prefix_of_leading (by simp [h]) hu, _, rfl,
      faultAt_incomplete index h⟩⟩

/-- The reader accepts octets as the text that they encode, or tells their fault. -/
theorem decode_cases (bs : Bytes) :
    (∃ s, decode bs = .ok s ∧ encode s = bs) ∨ ∃ f, decode bs = .error f ∧ HasFault bs f := by
  obtain ⟨cs, rest, rfl, ⟨rfl, hd⟩ | ⟨hno, f, hd, hf⟩⟩ := decodeFrom_cases 0 bs
  · refine .inl ⟨String.ofList cs, by rw [decode, hd, Except.map], ?_⟩
    rw [encode, String.toList_ofList, List.append_nil]
  · rw [Nat.zero_add] at hf
    exact .inr ⟨f, by rw [decode, hd, Except.map], _, _, rfl, longestFront_encodeList cs hno, hf⟩

/-- The reader accepts the encodings of texts, each as its text, and nothing else. -/
theorem decode_eq_ok_iff {bs : Bytes} {s : String} : decode bs = .ok s ↔ encode s = bs := by
  constructor
  · intro h
    rcases decode_cases bs with ⟨t, ht, he⟩ | ⟨f, hf, -⟩
    · cases ht.symm.trans h
      exact he
    · cases hf.symm.trans h
  · rintro rfl
    exact decode_encode s

theorem wellFormed_iff_exists_encode {bs : Bytes} : WellFormed bs ↔ ∃ s, encode s = bs := by
  rw [wellFormed_iff_exists_encodeList]
  constructor
  · rintro ⟨cs, rfl⟩
    exact ⟨String.ofList cs, by rw [encode, String.toList_ofList]⟩
  · rintro ⟨s, rfl⟩
    exact ⟨s.toList, rfl⟩

/-- Well-formed octets have no fault. -/
theorem not_hasFault {bs : Bytes} (h : WellFormed bs) (f : Fault) : ¬ HasFault bs f := by
  rintro ⟨front, rest, rfl, hfront, hfault⟩
  have hlength := hfront.longest _ (List.prefix_refl _) h
  rw [List.length_append] at hlength
  obtain rfl : rest = [] := List.length_eq_zero_iff.1 (by omega)
  cases hfault with
  | invalid hp => exact hp.ne_nil (List.prefix_nil.1 hp.head)
  | incomplete hne => exact hne rfl

/-- The reader tells the fault of octets, and none of those without one. -/
theorem decode_eq_error_iff {bs : Bytes} {f : Fault} : decode bs = .error f ↔ HasFault bs f := by
  rcases decode_cases bs with ⟨s, hs, he⟩ | ⟨g, hg, hfault⟩
  · have hno := not_hasFault (wellFormed_iff_exists_encode.2 ⟨s, he⟩) f
    rw [hs]
    exact ⟨(nomatch ·), fun h => absurd h hno⟩
  · rw [hg]
    exact ⟨fun h => Except.error.inj h ▸ hfault, fun h => congrArg _ (hfault.unique h)⟩

end RestDispatch.Utf8
