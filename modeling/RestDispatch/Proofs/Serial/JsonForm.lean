import Mathlib.Data.List.Forall2
import RestDispatch.Serial

/-!
# Values with a JSON form

A value has a JSON form if its integers fit in 64 bits and the keys of its maps are texts, or stand
for texts, wherever in the value they are: `Representable` says so without writing anything, and
`exists_toJson_iff` that these are the values that can be written. The object of a map is that of a
record (`entriesToJson_eq`), and its fields stand in the order of their keys, each key once.
-/

namespace RestDispatch

namespace Except

variable {ε α β : Type} {x : Except ε α}

theorem exists_map_iff {f : α → β} : (∃ b, x.map f = .ok b) ↔ ∃ a, x = .ok a := by
  cases x <;> simp [Except.map]

theorem exists_bind_iff {f : α → Except ε β} :
    (∃ b, x >>= f = .ok b) ↔ ∃ a, x = .ok a ∧ ∃ b, f a = .ok b := by
  cases x <;> simp [bind, Except.bind]

end Except

namespace Serial

/-! ### Representable values -/

/-- A value that can be the key of a map. -/
inductive IsKey : Serial → Prop
  | text (s : String) : IsKey (.text s)
  | char (c : Char) : IsKey (.char c)
  | unitVariant (name : String) : IsKey (.unitVariant name)
  | integer (i : Int) : IsKey (.integer i)
  | bool (b : Bool) : IsKey (.bool b)
  | single {x : Decimal.Single} (h : x.isFinite = true) : IsKey (.single x)
  | double {x : Decimal.Double} (h : x.isFinite = true) : IsKey (.double x)
  | newtype {v : Serial} (h : IsKey v) : IsKey (.newtype v)

/-- A value that has a JSON form. -/
inductive Representable : Serial → Prop
  | none : Representable .none
  | unit : Representable .unit
  | bool (b : Bool) : Representable (.bool b)
  | integer {i : Int} (hl : -0x8000000000000000 ≤ i) (hb : i < 0x10000000000000000) :
      Representable (.integer i)
  | single (x : Decimal.Single) : Representable (.single x)
  | double (x : Decimal.Double) : Representable (.double x)
  | char (c : Char) : Representable (.char c)
  | text (s : String) : Representable (.text s)
  | bytes (bs : Bytes) : Representable (.bytes bs)
  | some {v : Serial} (h : Representable v) : Representable (.some v)
  | newtype {v : Serial} (h : Representable v) : Representable (.newtype v)
  | unitVariant (name : String) : Representable (.unitVariant name)
  | variant {name : String} {v : Serial} (h : Representable v) : Representable (.variant name v)
  | sequence {vs : List Serial} (h : ∀ v ∈ vs, Representable v) : Representable (.sequence vs)
  | record {fs : List (String × Serial)} (h : ∀ f ∈ fs, Representable f.2) :
      Representable (.record fs)
  | map {es : List (Serial × Serial)} (hk : ∀ e ∈ es, IsKey e.1)
      (hv : ∀ e ∈ es, Representable e.2) : Representable (.map es)

theorem exists_floatKey_iff {w : Decimal.Width} {x : Decimal.Floating w} :
    (∃ k, floatKey x = .ok k) ↔ x.isFinite = true := by
  cases h : x.isFinite <;> simp [floatKey, h]

theorem exists_key_iff : ∀ v : Serial, (∃ k, v.key = .ok k) ↔ v.IsKey
  | .newtype v => by
    rw [key, exists_key_iff v]
    exact ⟨.newtype, fun h => by cases h; assumption⟩
  | .single x => by
    rw [key, exists_floatKey_iff]
    exact ⟨.single, fun h => by cases h; assumption⟩
  | .double x => by
    rw [key, exists_floatKey_iff]
    exact ⟨.double, fun h => by cases h; assumption⟩
  | .text _ => ⟨fun _ => .text _, fun _ => ⟨_, rfl⟩⟩
  | .char _ => ⟨fun _ => .char _, fun _ => ⟨_, rfl⟩⟩
  | .unitVariant _ => ⟨fun _ => .unitVariant _, fun _ => ⟨_, rfl⟩⟩
  | .integer _ => ⟨fun _ => .integer _, fun _ => ⟨_, rfl⟩⟩
  | .bool _ => ⟨fun _ => .bool _, fun _ => ⟨_, rfl⟩⟩
  | .none | .unit | .bytes _ | .some _ | .variant _ _ | .sequence _ | .record _ | .map _
  | .failing _ => ⟨fun ⟨_, h⟩ => (by cases h), fun h => (by cases h)⟩

theorem exists_integerJson_iff {i : Int} :
    (∃ j, integerJson i = .ok j) ↔ -0x8000000000000000 ≤ i ∧ i < 0x10000000000000000 := by
  rw [integerJson]
  by_cases h : -0x8000000000000000 ≤ i ∧ i < 0x10000000000000000
  · have hn : Integer64.ofInt? i = Option.some ⟨i, h.1, h.2⟩ := dif_pos h
    simp [hn, h]
  · have hn : Integer64.ofInt? i = Option.none := dif_neg h
    simp [hn, h]

mutual

/-- The values that can be written as JSON are those that have a JSON form. The proof goes by the
value and by the lists that it holds. -/
theorem exists_toJson_iff : ∀ v : Serial, (∃ j, v.toJson = .ok j) ↔ v.Representable
  | .none => ⟨fun _ => .none, fun _ => ⟨_, rfl⟩⟩
  | .unit => ⟨fun _ => .unit, fun _ => ⟨_, rfl⟩⟩
  | .bool _ => ⟨fun _ => .bool _, fun _ => ⟨_, rfl⟩⟩
  | .integer i => by
    rw [toJson, exists_integerJson_iff]
    exact ⟨fun h => .integer h.1 h.2, fun h => by cases h; constructor <;> assumption⟩
  | .single _ => ⟨fun _ => .single _, fun _ => ⟨_, rfl⟩⟩
  | .double _ => ⟨fun _ => .double _, fun _ => ⟨_, rfl⟩⟩
  | .char _ => ⟨fun _ => .char _, fun _ => ⟨_, rfl⟩⟩
  | .text _ => ⟨fun _ => .text _, fun _ => ⟨_, rfl⟩⟩
  | .bytes _ => ⟨fun _ => .bytes _, fun _ => ⟨_, rfl⟩⟩
  | .some v => by
    rw [toJson, exists_toJson_iff v]
    exact ⟨.some, fun h => by cases h; assumption⟩
  | .newtype v => by
    rw [toJson, exists_toJson_iff v]
    exact ⟨.newtype, fun h => by cases h; assumption⟩
  | .unitVariant _ => ⟨fun _ => .unitVariant _, fun _ => ⟨_, rfl⟩⟩
  | .variant _ v => by
    rw [toJson, Except.exists_map_iff, exists_toJson_iff v]
    exact ⟨.variant, fun h => by cases h; assumption⟩
  | .sequence vs => by
    rw [toJson, Except.exists_map_iff, exists_itemsToJson_iff vs]
    exact ⟨.sequence, fun h => by cases h; assumption⟩
  | .record fs => by
    rw [toJson, Except.exists_map_iff, exists_fieldsToJson_iff fs]
    exact ⟨.record, fun h => by cases h; assumption⟩
  | .map es => by
    rw [toJson, Except.exists_map_iff, exists_entriesToJson_iff es]
    exact ⟨fun h => .map (fun e he => (h e he).1) fun e he => (h e he).2,
      fun h => by cases h with | map hk hv => exact fun e he => ⟨hk e he, hv e he⟩⟩
  | .failing _ => ⟨fun ⟨_, h⟩ => (by cases h), fun h => (by cases h)⟩

theorem exists_itemsToJson_iff : ∀ vs : List Serial,
    (∃ js, itemsToJson vs = .ok js) ↔ ∀ v ∈ vs, v.Representable
  | [] => by simp [itemsToJson]
  | v :: vs => by
    rw [itemsToJson, Except.exists_bind_iff, List.forall_mem_cons, ← exists_toJson_iff v,
      ← exists_itemsToJson_iff vs]
    simp [Except.exists_bind_iff, pure, Except.pure]

theorem exists_fieldsToJson_iff {done : List (String × Json)} : ∀ fs : List (String × Serial),
    (∃ es, fieldsToJson done fs = .ok es) ↔ ∀ f ∈ fs, f.2.Representable
  | [] => by simp [fieldsToJson]
  | (k, v) :: fs => by
    rw [fieldsToJson, Except.exists_bind_iff, List.forall_mem_cons, ← exists_toJson_iff v]
    simp only [exists_fieldsToJson_iff fs, exists_and_right]

theorem exists_entriesToJson_iff {done : List (String × Json)} : ∀ es : List (Serial × Serial),
    (∃ js, entriesToJson done es = .ok js) ↔ ∀ e ∈ es, e.1.IsKey ∧ e.2.Representable
  | [] => by simp [entriesToJson]
  | (k, v) :: es => by
    rw [entriesToJson, Except.exists_bind_iff, List.forall_mem_cons, ← exists_toJson_iff v,
      ← exists_key_iff k]
    simp only [Except.exists_bind_iff, exists_entriesToJson_iff es, exists_and_right, and_assoc]

end

/-! ### Objects -/

/-- The entries of a map and the fields that they are, each under the text of its key. -/
def Named (es : List (Serial × Serial)) (fs : List (String × Serial)) : Prop :=
  List.Forall₂ (fun e f => e.1.key = .ok f.1 ∧ e.2 = f.2) es fs

/-- The entries of a map are written as the fields that they are. -/
theorem entriesToJson_eq {es : List (Serial × Serial)} {fs : List (String × Serial)}
    (h : Named es fs) (done : List (String × Json)) :
    entriesToJson done es = fieldsToJson done fs := by
  induction h generalizing done with
  | nil => rfl
  | @cons e f es fs he _ ih =>
    obtain ⟨k, v⟩ := e
    obtain ⟨n, w⟩ := f
    obtain ⟨hk, rfl⟩ := he
    simp only [entriesToJson, fieldsToJson, hk, ih]
    rfl

theorem increasing_of_fieldsToJson {fs : List (String × Serial)} {done es : List (String × Json)}
    (hd : Increasing done) (h : fieldsToJson done fs = .ok es) : Increasing es := by
  induction fs generalizing done with
  | nil => exact Except.ok.inj h ▸ hd
  | cons f fs ih =>
    obtain ⟨k, v⟩ := f
    rw [fieldsToJson] at h
    cases hv : v.toJson with
    | error e =>
      rw [hv] at h
      cases h
    | ok j =>
      rw [hv] at h
      exact ih (hd.insertEntry k j) h

end Serial
end RestDispatch
