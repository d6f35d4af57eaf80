import RestDispatch.Proofs.Decimal.Widening
import RestDispatch.Proofs.Query.Scalars

/-!
# Parameters that are supplied

A field of a query that is none or a unit is unset, and has no parameter. The code tells such fields
by their JSON value, which is null; but null is also what stands for a floating-point number that is
infinite or no number (`toJson_eq_null_iff`). So a field that is supplied is sent unless it is such
a number, and a default value takes the place of that (`supplied_sent_iff`).
-/

namespace RestDispatch

namespace Serial

/-- Whether a value is left unset: it is none or a unit, also inside wrappers. -/
def isUnset : Serial → Bool
  | .none => true
  | .unit => true
  | .some v => v.isUnset
  | .newtype v => v.isUnset
  | _ => false

/-- Whether a value is a floating-point number that is infinite or no number, also inside wrappers.
-/
def isNonFinite : Serial → Bool
  | .single x => !x.isFinite
  | .double x => !x.isFinite
  | .some v => v.isNonFinite
  | .newtype v => v.isNonFinite
  | _ => false

/-- The fields of a record, and those of a map under the texts of its keys, also inside wrappers. -/
inductive HasFields : Serial → List (String × Serial) → Prop
  | record (fs : List (String × Serial)) : HasFields (.record fs) fs
  | map {es : List (Serial × Serial)} {fs : List (String × Serial)} (h : Named es fs) :
      HasFields (.map es) fs
  | some {v : Serial} {fs : List (String × Serial)} (h : HasFields v fs) : HasFields (.some v) fs
  | newtype {v : Serial} {fs : List (String × Serial)} (h : HasFields v fs) :
      HasFields (.newtype v) fs

/-- A value with fields is written as the record of these. -/
theorem HasFields.toJson_eq {v : Serial} {fs : List (String × Serial)} (h : v.HasFields fs) :
    v.toJson = (Serial.record fs).toJson := by
  induction h with
  | record fs => rfl
  | map h => rw [toJson, toJson, entriesToJson_eq h]
  | some _ ih => rw [toJson, ih]
  | newtype _ ih => rw [toJson, ih]

theorem ofFloat_eq_null_iff {x : Decimal.Double} :
    Json.ofFloat x = .null ↔ (!x.isFinite) = true := by
  cases h : x.isFinite <;> simp [Json.ofFloat, h]

/-- Null stands for what is unset, and for numbers that are not finite. -/
theorem toJson_eq_null_iff : ∀ {v : Serial},
    v.toJson = .ok .null ↔ v.isUnset = true ∨ v.isNonFinite = true
  | .none | .unit => iff_of_true rfl (.inl rfl)
  | .some v => toJson_eq_null_iff (v := v)
  | .newtype v => toJson_eq_null_iff (v := v)
  | .single x => by
    rw [toJson, Except.ok.injEq, ofFloat_eq_null_iff, Decimal.Floating.isFinite_widen]
    simp only [isUnset, isNonFinite, Bool.false_eq_true, false_or]
  | .double x => by
    rw [toJson, Except.ok.injEq, ofFloat_eq_null_iff]
    simp only [isUnset, isNonFinite, Bool.false_eq_true, false_or]
  | .integer i => by
    refine iff_of_false (fun h => ?_) (by simp [isUnset, isNonFinite])
    rw [toJson, integerJson] at h
    split at h <;> cases h
  | .variant name v => by
    refine iff_of_false (fun h => ?_) (by simp [isUnset, isNonFinite])
    rw [toJson] at h
    cases hv : v.toJson <;> rw [hv] at h <;> cases h
  | .sequence vs => by
    refine iff_of_false (fun h => ?_) (by simp [isUnset, isNonFinite])
    rw [toJson] at h
    cases hv : itemsToJson vs <;> rw [hv] at h <;> cases h
  | .record fs => by
    refine iff_of_false (fun h => ?_) (by simp [isUnset, isNonFinite])
    rw [toJson] at h
    cases hv : fieldsToJson [] fs <;> rw [hv] at h <;> cases h
  | .map es => by
    refine iff_of_false (fun h => ?_) (by simp [isUnset, isNonFinite])
    rw [toJson] at h
    cases hv : entriesToJson [] es <;> rw [hv] at h <;> cases h
  | .bool _ | .char _ | .text _ | .bytes _ | .unitVariant _ | .failing _ =>
    iff_of_false (fun h => by cases h) (by simp [isUnset, isNonFinite])

end Serial

namespace Query

variable {v : Serial} {fs : List (String × Serial)} {q : Query}

/-- The query of a value with fields is made of the JSON values of these. -/
theorem exists_object_of_flatten (hv : v.HasFields fs) (h : flatten v = .ok q) :
    ∃ es, Serial.fieldsToJson [] fs = .ok es ∧ ofFields .empty es = .ok q ∧ Increasing es := by
  rw [flatten, hv.toJson_eq, Serial.toJson] at h
  cases hes : Serial.fieldsToJson [] fs with
  | error e =>
    rw [hes] at h
    cases h
  | ok es =>
    rw [hes] at h
    exact ⟨es, rfl, h, Serial.increasing_of_fieldsToJson .nil hes⟩

/-- A field of a query has a JSON value, and its parameter is the text of that, if it has one. -/
theorem exists_json_of_mem (hv : v.HasFields fs) (hn : (fs.map Prod.fst).Nodup)
    (h : flatten v = .ok q) {k : String} {s : Serial} (hm : (k, s) ∈ fs) :
    ∃ j, s.toJson = .ok j ∧ ¬ j.IsNested ∧ ∀ t, q.get? k = some t ↔ j.Shows t := by
  obtain ⟨es, hes, hq, hi⟩ := exists_object_of_flatten hv h
  obtain ⟨j, hj⟩ := (Serial.exists_toJson_iff s).2
    ((Serial.exists_fieldsToJson_iff fs).1 ⟨es, hes⟩ (k, s) hm)
  have hmem : (k, j) ∈ es := (Serial.mem_fieldsToJson_iff hn hes).2 ⟨s, hm, hj⟩
  refine ⟨j, hj, ?_, fun t => ?_⟩
  · rcases ofFields_cases .empty es with ⟨hall, -⟩ | ⟨_, _, _, _, _, _, _, he⟩
    · exact hall _ hmem
    · cases he.symm.trans hq
  · rw [get?_of_ofFields hi hq]
    simp only [Json.scalar?_eq_some_iff]
    constructor
    · rintro ⟨j', hm', ht⟩
      have hlookup {i : Json} (hm : (k, i) ∈ es) : lookupEntry k es = some i :=
        (Table.lookupEntry_eq_some_iff (Table.nodup_keys ⟨es, hi⟩)).2 hm
      cases (hlookup hmem).symm.trans (hlookup hm')
      exact ht
    · exact fun ht => ⟨j, hmem, ht⟩

/-- **Parameters that are supplied.** Of a query whose keys are distinct, a field that is not unset
is sent, with its text and over any default value, exactly if it is no floating-point number that is
infinite or no number; what is sent in place of such a number is the default value. -/
theorem supplied_sent_iff (hv : v.HasFields fs) (hn : (fs.map Prod.fst).Nodup)
    (h : flatten v = .ok q) {k : String} {s : Serial} (hm : (k, s) ∈ fs) (hs : s.isUnset = false) :
    (k ∈ q.keys ↔ s.isNonFinite = false) ∧
      (s.isNonFinite = false → ∃ j t, s.toJson = .ok j ∧ j.Shows t ∧
        ∀ defaults, (merge defaults q).get? k = some t) ∧
      (s.isNonFinite = true → ∀ defaults, (merge defaults q).get? k = defaults.get? k) := by
  obtain ⟨j, hj, hnested, hget⟩ := exists_json_of_mem hv hn h hm
  have hnull : j = .null ↔ s.isNonFinite = true := by
    have := Serial.toJson_eq_null_iff (v := s)
    rwa [hj, hs, Except.ok.injEq, Bool.false_eq_true, false_or] at this
  have hkey : k ∈ q.keys ↔ j ≠ .null := by
    rw [Table.mem_keys_iff, ← Json.exists_shows_iff hnested]
    exact exists_congr hget
  refine ⟨?_, fun hf => ?_, fun hf defaults => ?_⟩
  · rw [hkey, ne_eq, hnull, Bool.not_eq_true]
  · have hne : j ≠ .null := fun e => by
      rw [hnull.1 e] at hf
      cases hf
    obtain ⟨t, ht⟩ := (Json.exists_shows_iff hnested).2 hne
    refine ⟨j, t, hj, ht, fun defaults => ?_⟩
    rw [merge, Table.get?_union, (hget t).2 ht, Option.some_or]
  · have hnone : q.get? k = none := by
      cases ht : q.get? k with
      | none => rfl
      | some t => exact absurd (hnull.2 hf) (hkey.1 (Table.mem_keys_iff.2 ⟨t, ht⟩))
    rw [merge, Table.get?_union, hnone, Option.none_or]

/-- Parameters with a number behind a wrapper, an unset one and a ratio. -/
def ratioParams (ratio : Decimal.Double) : Serial :=
  .some (.record [("page", .some (.integer 3)), ("sort", .none), ("ratio", .double ratio)])

theorem hasFields_ratioParams (ratio : Decimal.Double) : (ratioParams ratio).HasFields
    [("page", .some (.integer 3)), ("sort", .none), ("ratio", .double ratio)] :=
  .some (.record _)

/-- The defaults of a route. -/
def ratioDefaults : Query := .ofList [("page", "1"), ("ratio", "0.5")]

/-- A page is sent over the default one. -/
theorem supplied_sent_page :
    ([("page", Serial.some (.integer 3)), ("sort", .none),
        ("ratio", .double (.ofInt 2))].map Prod.fst).Nodup ∧
      flatten (ratioParams (.ofInt 2)) = .ok (.ofList [("page", "3"), ("ratio", "2.0")]) ∧
      (Serial.some (.integer 3)).isUnset = false ∧
      (merge ratioDefaults (.ofList [("page", "3"), ("ratio", "2.0")])).get? "page" = some "3" := by
  have hn : ([("page", Serial.some (.integer 3)), ("sort", .none),
      ("ratio", .double (.ofInt 2))].map Prod.fst).Nodup := by decide
  have h : flatten (ratioParams (.ofInt 2)) =
      .ok (.ofList [("page", "3"), ("ratio", "2.0")]) := by decide +kernel
  obtain ⟨-, hsent, -⟩ :=
    supplied_sent_iff (hasFields_ratioParams _) hn h (.head _) (rfl : _ = false)
  obtain ⟨j, t, hj, ht, hget⟩ := hsent rfl
  cases hj
  cases ht
  exact ⟨hn, h, rfl, (hget _).trans (by decide +kernel)⟩

/-- A ratio that is no number is not sent, and the default one is sent in its place. -/
theorem ratio_not_sent :
    (ratioParams .nan).HasFields
        [("page", .some (.integer 3)), ("sort", .none), ("ratio", .double .nan)] ∧
      ([("page", Serial.some (.integer 3)), ("sort", .none),
        ("ratio", .double .nan)].map Prod.fst).Nodup ∧
      (Serial.double .nan).isUnset = false ∧
      ∃ q, flatten (ratioParams .nan) = .ok q ∧ "ratio" ∉ q.keys ∧
        (merge ratioDefaults q).get? "ratio" = some "0.5" := by
  have h : flatten (ratioParams .nan) = .ok (.ofList [("page", "3")]) := by decide +kernel
  exact ⟨hasFields_ratioParams _, by decide, rfl, _, h, by decide +kernel, by decide +kernel⟩

end Query
end RestDispatch
