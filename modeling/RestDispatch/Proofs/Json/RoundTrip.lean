import RestDispatch.Json.Reader
import RestDispatch.Proofs.Json.Numbers
import RestDispatch.Proofs.Json.Strings

/-!
# Reading values that were written

The compact text of a value is read back as the value, if its numbers are integers, the fields of
its objects stand in the order of their names, and the reader has room for its depth. `ReadsBack`
says so of a value wherever it may stand in a text. It holds of a list or an object if it holds of
what is in them, and `parseAs_text` is what comes of that for a text of its own.
-/

namespace RestDispatch.Json

open Utf8

/-! ### Values -/

mutual

/-- How deep lists and objects nest in a value. -/
def depth : Json → Nat
  | .array items => depthOfItems items + 1
  | .object fields => depthOfFields fields + 1
  | _ => 0

/-- How deep lists and objects nest in the items of a list. -/
def depthOfItems : List Json → Nat
  | [] => 0
  | v :: vs => max (depth v) (depthOfItems vs)

/-- How deep lists and objects nest in the fields of an object. -/
def depthOfFields : List (String × Json) → Nat
  | [] => 0
  | (_, v) :: fs => max (depth v) (depthOfFields fs)

end

/-- A value without floating-point numbers, whose objects have their fields in the order of their
names, none of them twice. -/
inductive Plain : Json → Prop
  | null : Plain .null
  | bool (b : Bool) : Plain (.bool b)
  | integer (i : Integer64) : Plain (.number (.integer i))
  | string (s : String) : Plain (.string s)
  | array {items : List Json} (h : ∀ v ∈ items, Plain v) : Plain (.array items)
  | object {fields : List (String × Json)} (h : ∀ e ∈ fields, Plain e.2)
      (hf : Increasing fields) : Plain (.object fields)

/-! ### What comes next -/

theorem skipBlank_cons {b : UInt8} (h : isSeparator b = false) (bs : Bytes) :
    skipBlank (b :: bs) = b :: bs := by
  rw [skipBlank, List.dropWhile_cons, h]
  rfl

/-- An octet that a value may begin with. -/
structure Begins (b : UInt8) : Prop where
  separator : isSeparator b = false
  close : b ≠ ']'.toUInt8

theorem begins_of_isDigit {b : UInt8} (h : isDigit b = true) : Begins b := by
  constructor
  · refine Bool.eq_false_iff.2 fun hs => ?_
    simp only [isSeparator, Bool.or_eq_true, decide_eq_true_eq] at hs
    rcases hs with ((rfl | rfl) | rfl) | rfl <;> exact absurd h (by decide)
  · rintro rfl
    exact absurd h (by decide)

/-- The text of a value begins with one of the octets that a value may begin with. -/
theorem Plain.exists_write_eq {v : Json} (h : Plain v) :
    ∃ b bs, encodeList v.write = b :: bs ∧ Begins b := by
  cases h with
  | null => exact ⟨_, _, rfl, by decide, by decide⟩
  | bool b => cases b <;> exact ⟨_, _, rfl, by decide, by decide⟩
  | integer i =>
    obtain ⟨n, -, ⟨hw, -⟩ | ⟨hw, -⟩⟩ := integer_cases i
    · obtain ⟨b, bs, he, hb⟩ := exists_encodeList_toDigits n
      exact ⟨b, bs, (congrArg encodeList hw).trans he, begins_of_isDigit hb⟩
    · exact ⟨_, _, congrArg encodeList hw, by decide, by decide⟩
  | string s => exact ⟨_, _, rfl, by decide, by decide⟩
  | array _ => exact ⟨_, _, rfl, by decide, by decide⟩
  | object _ _ => exact ⟨_, _, rfl, by decide, by decide⟩

theorem ends_items (items : List Json) (rest : Bytes) :
    Ends (encodeList (writeMoreItems items) ++ rest) := by
  cases items with
  | nil =>
    rintro _ ⟨⟩
    exact .inr (.inl rfl)
  | cons v vs =>
    rintro _ ⟨⟩
    exact .inl rfl

theorem ends_fields (fields : List (String × Json)) (rest : Bytes) :
    Ends (encodeList (writeMoreFields fields) ++ rest) := by
  cases fields with
  | nil =>
    rintro _ ⟨⟩
    exact .inr (.inr rfl)
  | cons e es =>
    rintro _ ⟨⟩
    exact .inl rfl

/-! ### Lists -/

/-- Whether the text of a value is read as the value, wherever it may stand. -/
def ReadsBack (v : Json) : Prop :=
  ∀ {fuel room : Nat} {rest : Bytes}, v.depth ≤ room → (encodeList v.write).length < fuel →
    Ends rest → readValue fuel room (encodeList v.write ++ rest) = .ok (v, rest)

/-- Reads an item and the items after it. -/
def readItem (fuel room : Nat) (bs : Bytes) : Except Fault (List Json × Bytes) :=
  (readValue fuel room bs).bind fun r =>
    (readItems fuel room false r.2).bind fun more => .ok (r.1 :: more.1, more.2)

theorem readItems_closed (fuel room : Nat) (first : Bool) (rest : Bytes) :
    readItems (fuel + 1) room first (']'.toUInt8 :: rest) = .ok ([], rest) := by
  rw [readItems]
  rfl

theorem readItems_first (fuel room : Nat) {b : UInt8} (hb : Begins b) (bs : Bytes) :
    readItems (fuel + 1) room true (b :: bs) = readItem fuel room (b :: bs) := by
  rw [readItems, nextItem, skipBlank_cons hb.separator]
  simp only [if_neg hb.close]
  rfl

theorem readItems_more (fuel room : Nat) {b : UInt8} (hb : Begins b) (bs : Bytes) :
    readItems (fuel + 1) room false (','.toUInt8 :: b :: bs) = readItem fuel room (b :: bs) := by
  rw [readItems, nextItem, skipBlank_cons (by decide)]
  simp only [skipBlank_cons hb.separator, if_neg hb.close]
  rfl

/-- An item is read back before others that are. -/
theorem ReadsBack.readItem {v : Json} (hv : ReadsBack v) {fuel room : Nat}
    (hroom : v.depth ≤ room) (hfuel : (encodeList v.write).length < fuel) {items : List Json}
    {rest : Bytes} (hmore : readItems fuel room false (encodeList (writeMoreItems items) ++ rest) =
      .ok (items, rest)) :
    readItem fuel room (encodeList v.write ++ (encodeList (writeMoreItems items) ++ rest)) =
      .ok (v :: items, rest) := by
  rw [Json.readItem, hv hroom hfuel (ends_items items rest)]
  show (readItems _ _ _ _).bind _ = _
  rw [hmore]
  rfl

theorem length_writeMoreItems_pos (items : List Json) :
    0 < (encodeList (writeMoreItems items)).length := by
  cases items <;> exact Nat.succ_pos _

/-- The items after the first are read back. -/
theorem readItems_writeMoreItems {items : List Json} (hplain : ∀ v ∈ items, Plain v)
    (hread : ∀ v ∈ items, ReadsBack v) {fuel room : Nat} (hroom : depthOfItems items ≤ room)
    (hfuel : (encodeList (writeMoreItems items)).length < fuel) (rest : Bytes) :
    readItems fuel room false (encodeList (writeMoreItems items) ++ rest) = .ok (items, rest) := by
  induction items generalizing fuel with
  | nil =>
    obtain ⟨fuel, rfl⟩ := Nat.exists_eq_add_one_of_ne_zero (Nat.ne_zero_of_lt hfuel)
    exact readItems_closed fuel room false rest
  | cons v vs ih =>
    -- an item takes one unit of fuel, and the comma before it is an octet
    obtain ⟨fuel, rfl⟩ := Nat.exists_eq_add_one_of_ne_zero (Nat.ne_zero_of_lt hfuel)
    obtain ⟨hv, hvs⟩ := List.forall_mem_cons.1 hplain
    obtain ⟨hrv, hrvs⟩ := List.forall_mem_cons.1 hread
    obtain ⟨hdv, hdvs⟩ := Nat.max_le.1 hroom
    obtain ⟨b, bs, he, hb⟩ := hv.exists_write_eq
    have htext : encodeList (writeMoreItems (v :: vs)) =
        ','.toUInt8 :: (encodeList v.write ++ encodeList (writeMoreItems vs)) := by
      rw [← encodeList_append]
      rfl
    rw [htext, List.length_cons, List.length_append] at hfuel
    have hmore : readItems fuel room false (encodeList (writeMoreItems vs) ++ rest) =
        .ok (vs, rest) := ih hvs hrvs hdvs (by omega)
    rw [htext, List.cons_append, List.append_assoc, he, List.cons_append,
      readItems_more fuel room hb, ← List.cons_append, ← he]
    exact hrv.readItem hdv (by omega) hmore

/-- The items of a list are read back. -/
theorem readItems_writeItems {items : List Json} (hplain : ∀ v ∈ items, Plain v)
    (hread : ∀ v ∈ items, ReadsBack v) {fuel room : Nat} (hroom : depthOfItems items ≤ room)
    (hfuel : (encodeList (writeItems items)).length < fuel) (rest : Bytes) :
    readItems fuel room true (encodeList (writeItems items) ++ rest) = .ok (items, rest) := by
  obtain ⟨fuel, rfl⟩ := Nat.exists_eq_add_one_of_ne_zero (Nat.ne_zero_of_lt hfuel)
  cases items with
  | nil => exact readItems_closed fuel room true rest
  | cons v vs =>
    obtain ⟨hv, hvs⟩ := List.forall_mem_cons.1 hplain
    obtain ⟨hrv, hrvs⟩ := List.forall_mem_cons.1 hread
    obtain ⟨hdv, hdvs⟩ := Nat.max_le.1 hroom
    obtain ⟨b, bs, he, hb⟩ := hv.exists_write_eq
    rw [writeItems, encodeList_append] at hfuel ⊢
    have hlength : 0 < (encodeList v.write).length := by rw [he]; exact Nat.succ_pos _
    have hmore := length_writeMoreItems_pos vs
    rw [List.length_append] at hfuel
    rw [List.append_assoc, he, List.cons_append, readItems_first fuel room hb, ← List.cons_append,
      ← he]
    exact hrv.readItem hdv (by omega) (readItems_writeMoreItems hvs hrvs hdvs (by omega) rest)

/-! ### Objects -/

/-- Reads a field after the quote that opens its key, and the fields after it. -/
def readField (fuel room : Nat) (bs : Bytes) : Except Fault (List (String × Json) × Bytes) :=
  (readString bs).bind fun k => (readColon k.2).bind fun rest =>
    (readValue fuel room rest).bind fun v =>
      (readFields fuel room false v.2).bind fun more => .ok ((k.1, v.1) :: more.1, more.2)

theorem readFields_closed (fuel room : Nat) (first : Bool) (rest : Bytes) :
    readFields (fuel + 1) room first ('\x7d'.toUInt8 :: rest) = .ok ([], rest) := by
  rw [readFields]
  rfl

theorem readFields_first (fuel room : Nat) (bs : Bytes) :
    readFields (fuel + 1) room true ('"'.toUInt8 :: bs) = readField fuel room bs := by
  rw [readFields]
  rfl

theorem readFields_more (fuel room : Nat) (bs : Bytes) :
    readFields (fuel + 1) room false (','.toUInt8 :: '"'.toUInt8 :: bs) =
      readField fuel room bs := by
  rw [readFields]
  rfl

/-- The octets of a field after the quote that opens its key. -/
def fieldOctets (k : String) (v : Json) : Bytes :=
  encodeList (k.toList.flatMap escapeChar) ++ '"'.toUInt8 :: ':'.toUInt8 :: encodeList v.write

theorem encodeList_writeFields (k : String) (v : Json) (fs : List (String × Json)) :
    encodeList (writeFields ((k, v) :: fs)) =
      '"'.toUInt8 :: (fieldOctets k v ++ encodeList (writeMoreFields fs)) := by
  rw [writeFields, writeString, fieldOctets]
  simp only [encodeList_append, encodeList_cons, List.append_assoc, List.cons_append]
  rfl

theorem encodeList_writeMoreFields (k : String) (v : Json) (fs : List (String × Json)) :
    encodeList (writeMoreFields ((k, v) :: fs)) =
      ','.toUInt8 :: '"'.toUInt8 :: (fieldOctets k v ++ encodeList (writeMoreFields fs)) := by
  rw [← encodeList_writeFields]
  rfl

/-- A field is read back before others that are. -/
theorem ReadsBack.readField {k : String} {v : Json} (hv : ReadsBack v) {fuel room : Nat}
    (hroom : v.depth ≤ room) (hfuel : (fieldOctets k v).length ≤ fuel)
    {fields : List (String × Json)} {rest : Bytes}
    (hmore : readFields fuel room false (encodeList (writeMoreFields fields) ++ rest) =
      .ok (fields, rest)) :
    readField fuel room (fieldOctets k v ++ (encodeList (writeMoreFields fields) ++ rest)) =
      .ok ((k, v) :: fields, rest) := by
  rw [fieldOctets, List.length_append, List.length_cons, List.length_cons] at hfuel
  rw [Json.readField, fieldOctets, List.append_assoc, List.cons_append, List.cons_append,
    readString_flatMap]
  show (readValue _ _ _).bind _ = _
  rw [hv hroom (by omega) (ends_fields fields rest)]
  show (readFields _ _ _ _).bind _ = _
  rw [hmore]
  rfl

/-- The fields after the first are read back. -/
theorem readFields_writeMoreFields {fields : List (String × Json)}
    (hread : ∀ e ∈ fields, ReadsBack e.2) {fuel room : Nat} (hroom : depthOfFields fields ≤ room)
    (hfuel : (encodeList (writeMoreFields fields)).length < fuel) (rest : Bytes) :
    readFields fuel room false (encodeList (writeMoreFields fields) ++ rest) =
      .ok (fields, rest) := by
  induction fields generalizing fuel with
  | nil =>
    obtain ⟨fuel, rfl⟩ := Nat.exists_eq_add_one_of_ne_zero (Nat.ne_zero_of_lt hfuel)
    exact readFields_closed fuel room false rest
  | cons e es ih =>
    obtain ⟨fuel, rfl⟩ := Nat.exists_eq_add_one_of_ne_zero (Nat.ne_zero_of_lt hfuel)
    obtain ⟨hre, hres⟩ := List.forall_mem_cons.1 hread
    obtain ⟨hde, hdes⟩ := Nat.max_le.1 hroom
    rw [encodeList_writeMoreFields] at hfuel ⊢
    rw [List.length_cons, List.length_cons, List.length_append] at hfuel
    rw [List.cons_append, List.cons_append, List.append_assoc, readFields_more]
    exact hre.readField hde (by omega) (ih hres hdes (by omega))

/-- The fields of an object are read back. -/
theorem readFields_writeFields {fields : List (String × Json)}
    (hread : ∀ e ∈ fields, ReadsBack e.2) {fuel room : Nat} (hroom : depthOfFields fields ≤ room)
    (hfuel : (encodeList (writeFields fields)).length < fuel) (rest : Bytes) :
    readFields fuel room true (encodeList (writeFields fields) ++ rest) = .ok (fields, rest) := by
  obtain ⟨fuel, rfl⟩ := Nat.exists_eq_add_one_of_ne_zero (Nat.ne_zero_of_lt hfuel)
  cases fields with
  | nil => exact readFields_closed fuel room true rest
  | cons e es =>
    obtain ⟨hre, hres⟩ := List.forall_mem_cons.1 hread
    obtain ⟨hde, hdes⟩ := Nat.max_le.1 hroom
    rw [encodeList_writeFields] at hfuel ⊢
    rw [List.length_cons, List.length_append] at hfuel
    rw [List.cons_append, List.append_assoc, readFields_first]
    exact hre.readField hde (by omega) (readFields_writeMoreFields hres hdes (by omega) rest)

/-- A field whose name comes after all others is entered at the end. -/
theorem insertEntry_of_forall_lt {k : String} {v : Json} {es : List (String × Json)}
    (h : ∀ e ∈ es, e.1 < k) : insertEntry k v es = es ++ [(k, v)] := by
  induction es with
  | nil => rfl
  | cons e es ih =>
    obtain ⟨he, hes⟩ := List.forall_mem_cons.1 h
    have hne : k ≠ e.1 := fun hk => String.lt_irrefl _ (hk ▸ he)
    rw [insertEntry, if_neg (String.lt_asymm he), if_neg hne, ih hes]
    rfl

theorem foldl_insertEntry {es fs : List (String × Json)} (h : Increasing (es ++ fs)) :
    fs.foldl (fun es e => insertEntry e.1 e.2 es) es = es ++ fs := by
  induction fs generalizing es with
  | nil => exact (List.append_nil es).symm
  | cons f fs ih =>
    have hlt : ∀ e ∈ es, e.1 < f.1 := fun e he =>
      (List.pairwise_append.1 h).2.2 e he f (.head fs)
    rw [List.append_cons] at h ⊢
    rw [List.foldl_cons, insertEntry_of_forall_lt hlt, ih h]

/-- Fields that come in the order of their names make up the object that has them. -/
theorem objectOf_eq {fields : List (String × Json)} (h : Increasing fields) :
    objectOf fields = .object fields :=
  congrArg Json.object (foldl_insertEntry h)

/-! ### Values -/

theorem readValue_digit (fuel room : Nat) {b : UInt8} (hb : isDigit b = true) (bs : Bytes) :
    readValue (fuel + 1) room (b :: bs) =
      (readNumber false (b :: bs)).map fun r => (.number r.1, r.2) := by
  have hne {c : UInt8} (hc : isDigit c = false) : b ≠ c := by
    rintro rfl
    exact absurd hb (by simp [hc])
  rw [readValue, skipBlank_cons (begins_of_isDigit hb).separator]
  simp only [if_neg (hne (show isDigit 'n'.toUInt8 = false by decide)),
    if_neg (hne (show isDigit 't'.toUInt8 = false by decide)),
    if_neg (hne (show isDigit 'f'.toUInt8 = false by decide)),
    if_neg (hne (show isDigit '-'.toUInt8 = false by decide)), if_pos hb]

theorem readValue_minus (fuel room : Nat) (bs : Bytes) :
    readValue (fuel + 1) room ('-'.toUInt8 :: bs) =
      (readNumber true bs).map fun r => (.number r.1, r.2) := by
  rw [readValue]
  rfl

theorem readValue_quote (fuel room : Nat) (bs : Bytes) :
    readValue (fuel + 1) room ('"'.toUInt8 :: bs) =
      (readString bs).map fun r => (.string r.1, r.2) := by
  rw [readValue]
  rfl

theorem readValue_list (fuel room : Nat) (bs : Bytes) :
    readValue (fuel + 1) (room + 1) ('['.toUInt8 :: bs) =
      (readItems fuel room true bs).map fun r => (.array r.1, r.2) := by
  rw [readValue]
  rfl

theorem readValue_object (fuel room : Nat) (bs : Bytes) :
    readValue (fuel + 1) (room + 1) ('\x7b'.toUInt8 :: bs) =
      (readFields fuel room true bs).map fun r => (objectOf r.1, r.2) := by
  rw [readValue]
  rfl

/-- The text of an integer is read as the integer. -/
theorem readsBack_integer (i : Integer64) : ReadsBack (.number (.integer i)) := by
  rintro (_ | fuel) room rest - hfuel hrest
  · cases hfuel
  obtain ⟨n, hn, ⟨hw, hs⟩ | ⟨hw, hs⟩⟩ := integer_cases i
  · obtain ⟨b, bs, he, hb⟩ := exists_encodeList_toDigits n
    rw [write, hw, he, List.cons_append, readValue_digit fuel room hb, ← List.cons_append, ← he,
      readNumber_toDigits false hn hrest, hs]
    rfl
  · have htext : encodeList (write (.number (.integer i))) ++ rest =
        '-'.toUInt8 :: (encodeList (Nat.toDigits 10 n) ++ rest) := by
      rw [write, hw]
      rfl
    rw [htext, readValue_minus, readNumber_toDigits true hn hrest, hs]
    rfl

/-- The text of a string is read as the string. -/
theorem readsBack_string (s : String) : ReadsBack (.string s) := by
  rintro (_ | fuel) room rest - hfuel -
  · cases hfuel
  have htext : encodeList (write (.string s)) ++ rest =
      '"'.toUInt8 :: (encodeList (s.toList.flatMap escapeChar) ++ '"'.toUInt8 :: rest) := by
    rw [write, writeString, List.cons_append, encodeList_cons, encodeList_append, List.append_assoc,
      List.append_assoc]
    rfl
  rw [htext, readValue_quote, readString_flatMap]
  rfl

/-- The text of a list is read as the list, if those of its items are read as the items. -/
theorem readsBack_array {items : List Json} (hplain : ∀ v ∈ items, Plain v)
    (hread : ∀ v ∈ items, ReadsBack v) : ReadsBack (.array items) := by
  rintro (_ | fuel) (_ | room) rest hroom hfuel -
  · cases hfuel
  · cases hfuel
  · cases hroom
  have hitems : (encodeList (writeItems items)).length < fuel := Nat.lt_of_succ_lt_succ hfuel
  show readValue (fuel + 1) (room + 1) ('['.toUInt8 :: (encodeList (writeItems items) ++ rest)) = _
  rw [readValue_list,
    readItems_writeItems hplain hread (Nat.le_of_succ_le_succ hroom) hitems rest]
  rfl

/-- The text of an object is read as the object, if those of its values are read as the values. -/
theorem readsBack_object {fields : List (String × Json)} (hincreasing : Increasing fields)
    (hread : ∀ e ∈ fields, ReadsBack e.2) : ReadsBack (.object fields) := by
  rintro (_ | fuel) (_ | room) rest hroom hfuel -
  · cases hfuel
  · cases hfuel
  · cases hroom
  have hfields : (encodeList (writeFields fields)).length < fuel := Nat.lt_of_succ_lt_succ hfuel
  show readValue (fuel + 1) (room + 1)
    ('\x7b'.toUInt8 :: (encodeList (writeFields fields) ++ rest)) = _
  rw [readValue_object, readFields_writeFields hread (Nat.le_of_succ_le_succ hroom) hfields rest]
  show Except.ok (objectOf fields, rest) = _
  rw [objectOf_eq hincreasing]

/-- The text of a value without floating-point numbers is read as the value, if there is room for
its depth. -/
theorem Plain.readsBack {v : Json} (h : Plain v) : ReadsBack v := by
  induction h with
  | null =>
    rintro (_ | fuel) room rest - hfuel -
    · cases hfuel
    · rw [readValue]
      rfl
  | bool b =>
    rintro (_ | fuel) room rest - hfuel -
    · cases hfuel
    · cases b <;> (rw [readValue]; rfl)
  | integer i => exact readsBack_integer i
  | string s => exact readsBack_string s
  | array h ih => exact readsBack_array h ih
  | object _ hf ih => exact readsBack_object hf ih

/-- Reading undoes writing: the text of a value without floating-point numbers is that of the value
alone, as deep as values may be. -/
theorem parseAs_text {v : Json} (hv : Plain v) (hdepth : v.depth ≤ depthLimit) :
    parseAs .any (encode v.text) = .ok v := by
  have hread : readAs (3 * (encode v.text).length + 3) depthLimit .any (encode v.text) =
      .ok (v, []) := by
    rw [readAs, encode, text, String.toList_ofList, ← List.append_nil (encodeList v.write)]
    exact hv.readsBack hdepth (by rw [List.append_nil]; omega) ends_nil
  rw [parseAs, hread]
  rfl

/-- The text of a value is not empty. -/
theorem Plain.encode_text_ne_nil {v : Json} (h : Plain v) : encode v.text ≠ [] := by
  obtain ⟨b, bs, he, -⟩ := h.exists_write_eq
  rw [encode, text, String.toList_ofList, he]
  exact List.cons_ne_nil b bs

end RestDispatch.Json
