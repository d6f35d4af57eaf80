import RestDispatch.Error
import RestDispatch.Proofs.Query.Flatten
import RestDispatch.Proofs.Text.ByteOrder

/-!
# Which values are queries

The query of a value is that of its JSON form, which has to be null or an object of scalars and
nulls. `Query.Flattens` says what becomes of each JSON value: its parameters, or the first field of
an object that nests further, or the kind of what is no object. `flatten_payload_or_flattens` says
that this is what becomes of every value that has a JSON form, and that no other value has a query.
-/

namespace RestDispatch

namespace Json

/-- A value that holds others. -/
inductive IsNested : Json → Prop
  | array (items : List Json) : IsNested (.array items)
  | object (fields : List (String × Json)) : IsNested (.object fields)

/-- The text that a scalar has in a query. -/
inductive Shows : Json → String → Prop
  | true : Shows (.bool true) "true"
  | false : Shows (.bool false) "false"
  | number (n : JsonNumber) : Shows (.number n) (Json.number n).text
  | string (s : String) : Shows (.string s) s

theorem scalar?_eq_some_iff {j : Json} {t : String} : j.scalar? = some t ↔ j.Shows t := by
  constructor
  · intro h
    cases j with
    | bool b => cases b <;> cases h <;> constructor
    | number n =>
      cases h
      exact .number n
    | string s =>
      cases h
      exact .string _
    | _ => cases h
  · rintro (_ | _ | _ | _) <;> rfl

/-- Of what is not nested, all but null has a text. -/
theorem exists_shows_iff {j : Json} (h : ¬ j.IsNested) : (∃ t, j.Shows t) ↔ j ≠ .null := by
  cases j with
  | null => exact ⟨fun ⟨_, h⟩ => (by cases h), fun h => absurd rfl h⟩
  | bool b => cases b <;> exact ⟨fun _ => Json.noConfusion, fun _ => ⟨_, by constructor⟩⟩
  | number n => exact ⟨fun _ => Json.noConfusion, fun _ => ⟨_, .number n⟩⟩
  | string s => exact ⟨fun _ => Json.noConfusion, fun _ => ⟨_, .string s⟩⟩
  | array items => exact absurd (.array items) h
  | object fields => exact absurd (.object fields) h

end Json

namespace Query

/-! ### Objects -/

theorem render_of_isNested (k : String) {j : Json} (h : j.IsNested) :
    render k j = .error (.nested k j.kind) := by
  cases h <;> rfl

theorem exists_render_of_not_isNested (k : String) {j : Json} (h : ¬ j.IsNested) :
    ∃ t, render k j = .ok t := by
  cases j with
  | array items => exact absurd (.array items) h
  | object fields => exact absurd (.object fields) h
  | _ => exact ⟨_, rfl⟩

/-- The fields of an object are scalars and nulls and have parameters, or one of them is the first
that is nested, and the object has none. -/
theorem ofFields_cases (done : Query) (fs : List (String × Json)) :
    ((∀ e ∈ fs, ¬ e.2.IsNested) ∧ ∃ q, ofFields done fs = .ok q) ∨
      ∃ before k j after, fs = before ++ (k, j) :: after ∧ (∀ e ∈ before, ¬ e.2.IsNested) ∧
        j.IsNested ∧ ofFields done fs = .error (.nested k j.kind) := by
  induction fs generalizing done with
  | nil => exact .inl ⟨by simp, done, rfl⟩
  | cons f fs ih =>
    obtain ⟨k, j⟩ := f
    by_cases hj : j.IsNested
    · refine .inr ⟨[], k, j, fs, rfl, by simp, hj, ?_⟩
      rw [ofFields, render_of_isNested k hj]
      rfl
    · obtain ⟨t, ht⟩ := exists_render_of_not_isNested k hj
      -- a null leaves the parameters as they are, and the rest is read behind either
      obtain ⟨done', hstep⟩ : ∃ done', ofFields done ((k, j) :: fs) = ofFields done' fs := by
        rw [ofFields, ht]
        cases t with
        | none => exact ⟨done, rfl⟩
        | some s => exact ⟨done.insert k s, rfl⟩
      rw [hstep]
      rcases ih done' with ⟨hall, hq⟩ | ⟨before, k', j', after, rfl, hb, hj', he⟩
      · exact .inl ⟨List.forall_mem_cons.2 ⟨hj, hall⟩, hq⟩
      · exact .inr ⟨(k, j) :: before, k', j', after, rfl, List.forall_mem_cons.2 ⟨hj, hb⟩, hj', he⟩

end Query
end RestDispatch
