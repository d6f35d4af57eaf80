import RestDispatch.Proofs.Serial.JsonForm
import RestDispatch.Query

/-!
# The parameters of a record

The fields of a record become the fields of an object, and the scalars among these become query
parameters. Both are tables made of lists, whose entries the fields give one by one, so that a
record without a field twice gives under each name what the field of the name gives
(`get?_flatten_record`).
-/

namespace RestDispatch

theorem Except.toOption_eq_some_iff {ε α : Type} {x : Except ε α} {a : α} :
    x.toOption = some a ↔ x = .ok a := by
  cases x <;> simp [Except.toOption]

namespace Table

variable {α : Type}

theorem entries_foldl_insert (es : List (String × α)) (t : Table α) :
    (es.foldl (fun t e => t.insert e.1 e.2) t).entries =
      es.foldl (fun es e => insertEntry e.1 e.2 es) t.entries := by
  induction es generalizing t with
  | nil => rfl
  | cons e es ih => exact ih (t.insert e.1 e.2)

theorem mem_entries_iff {t : Table α} {k : String} {v : α} :
    (k, v) ∈ t.entries ↔ t.get? k = some v :=
  (lookupEntry_eq_some_iff t.nodup_keys).symm

/-- A table made of entries without a key twice holds these. -/
theorem get?_ofList_eq_some_iff {es : List (String × α)} (h : (es.map Prod.fst).Nodup)
    {k : String} {v : α} : (ofList es).get? k = some v ↔ (k, v) ∈ es := by
  rw [ofList, get?_foldl_insert h, get?_empty, Option.or_none, lookupEntry_eq_some_iff h]

end Table

/-! ### Entries one by one -/

section

variable {α β : Type} {g : α → Option β} {es : List (String × α)}

/-- Entries with what `g` makes of their values. Those of which it makes nothing are left out. -/
def pickEntries (g : α → Option β) (es : List (String × α)) : List (String × β) :=
  es.filterMap fun e => (g e.2).map fun b => (e.1, b)

theorem mem_pickEntries {k : String} {b : β} :
    (k, b) ∈ pickEntries g es ↔ ∃ a, (k, a) ∈ es ∧ g a = some b := by
  simp only [pickEntries, List.mem_filterMap, Option.map_eq_some_iff, Prod.exists, Prod.mk.injEq]
  constructor
  · rintro ⟨k, a, hm, b, hb, rfl, rfl⟩
    exact ⟨a, hm, hb⟩
  · rintro ⟨a, hm, hb⟩
    exact ⟨k, a, hm, b, hb, rfl, rfl⟩

theorem keys_pickEntries_sublist (g : α → Option β) (es : List (String × α)) :
    ((pickEntries g es).map Prod.fst).Sublist (es.map Prod.fst) := by
  induction es with
  | nil => exact .slnil
  | cons e es ih =>
    rw [pickEntries, List.filterMap_cons]
    cases g e.2 with
    | none => exact ih.cons e.1
    | some b => exact ih.cons_cons e.1

theorem nodup_pickEntries (h : (es.map Prod.fst).Nodup) :
    ((pickEntries g es).map Prod.fst).Nodup :=
  (keys_pickEntries_sublist g es).nodup h

end

/-! ### Objects -/

/-- The fields of a record that has a JSON form are entered one after the other. -/
theorem Serial.of_fieldsToJson {done es : List (String × Json)} {fs : List (String × Serial)}
    (h : fieldsToJson done fs = .ok es) :
    (pickEntries (fun s => s.toJson.toOption) fs).foldl
      (fun es e => insertEntry e.1 e.2 es) done = es := by
  induction fs generalizing done with
  | nil => exact Except.ok.inj h
  | cons f fs ih =>
    obtain ⟨k, v⟩ := f
    rw [fieldsToJson] at h
    cases hv : v.toJson with
    | error e =>
      rw [hv] at h
      cases h
    | ok j =>
      rw [hv] at h
      rw [pickEntries, List.filterMap_cons, hv]
      exact ih h

/-- The object of a record without a field twice has the JSON values of the fields. -/
theorem Serial.mem_fieldsToJson_iff {fs : List (String × Serial)} (hn : (fs.map Prod.fst).Nodup)
    {es : List (String × Json)} (h : fieldsToJson [] fs = .ok es) {k : String} {j : Json} :
    (k, j) ∈ es ↔ ∃ s, (k, s) ∈ fs ∧ s.toJson = .ok j := by
  have hobject : (Table.ofList (pickEntries (fun s => s.toJson.toOption) fs)).entries = es :=
    (Table.entries_foldl_insert _ .empty).trans (of_fieldsToJson h)
  rw [← hobject, Table.mem_entries_iff, Table.get?_ofList_eq_some_iff (nodup_pickEntries hn),
    mem_pickEntries]
  exact exists_congr fun s => and_congr_right' Except.toOption_eq_some_iff

/-- The text of a scalar. -/
def Json.scalar? : Json → Option String
  | .bool b => some (if b then "true" else "false")
  | .number n => some (String.ofList n.text)
  | .string s => some s
  | _ => none

namespace Query

/-- A value that has a parameter is a scalar with that text, or null. -/
theorem of_render {key : String} {j : Json} {t : Option String} (h : render key j = .ok t) :
    j.scalar? = t := by
  cases j <;> cases h <;> rfl

/-- The fields of an object that has parameters are entered one after the other. -/
theorem of_ofFields {done q : Query} {fs : List (String × Json)} (h : ofFields done fs = .ok q) :
    (pickEntries Json.scalar? fs).foldl (fun t e => t.insert e.1 e.2) done = q := by
  induction fs generalizing done with
  | nil => exact Except.ok.inj h
  | cons f fs ih =>
    obtain ⟨k, v⟩ := f
    rw [ofFields] at h
    cases hr : render k v with
    | error e =>
      rw [hr] at h
      cases h
    | ok t =>
      rw [hr] at h
      rw [pickEntries, List.filterMap_cons, of_render hr]
      cases t with
      | none => exact ih h
      | some s => exact ih h

/-- The parameters of an object are the texts of its scalars. -/
theorem get?_of_ofFields {fs : List (String × Json)} (hi : Increasing fs) {q : Query}
    (h : ofFields .empty fs = .ok q) {k t : String} :
    q.get? k = some t ↔ ∃ j, (k, j) ∈ fs ∧ j.scalar? = some t := by
  have hkeys : (fs.map Prod.fst).Nodup := Table.nodup_keys ⟨fs, hi⟩
  have hq : Table.ofList (pickEntries Json.scalar? fs) = q := of_ofFields h
  rw [← hq, Table.get?_ofList_eq_some_iff (nodup_pickEntries hkeys), mem_pickEntries]

/-- The parameters of a record: under a name stands the text of the field of the name, if that is a
scalar, and nothing else. -/
theorem get?_flatten_record {fs : List (String × Serial)} (hn : (fs.map Prod.fst).Nodup)
    {q : Query} (h : flatten (.record fs) = .ok q) {k v : String} :
    q.get? k = some v ↔ ∃ s j, (k, s) ∈ fs ∧ s.toJson = .ok j ∧ j.scalar? = some v := by
  rw [flatten, Serial.toJson] at h
  cases hes : Serial.fieldsToJson [] fs with
  | error e =>
    rw [hes] at h
    cases h
  | ok es =>
    rw [hes] at h
    rw [get?_of_ofFields (Serial.increasing_of_fieldsToJson .nil hes) h]
    simp only [Serial.mem_fieldsToJson_iff hn hes]
    constructor
    · rintro ⟨j, ⟨s, hs, hj⟩, hv⟩
      exact ⟨s, j, hs, hj, hv⟩
    · rintro ⟨s, j, hs, hj, hv⟩
      exact ⟨j, ⟨s, hs, hj⟩, hv⟩

end Query
end RestDispatch
