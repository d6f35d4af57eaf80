/-!
# Tables

Values under text keys, in strictly increasing order of the keys. `get?_insert` says what a table
holds after a write, `get?_union` what two tables hold together, and `ext_get?` that a table is
determined by what it holds.
-/

namespace RestDispatch

/-- Writes a value under a key into entries in increasing key order. -/
def insertEntry {α : Type _} (k : String) (v : α) : List (String × α) → List (String × α)
  | [] => [(k, v)]
  | e :: es =>
    if k < e.1 then (k, v) :: e :: es
    else if k = e.1 then (k, v) :: es
    else e :: insertEntry k v es

/-- The value under a key among entries. -/
def lookupEntry {α : Type _} (k : String) (es : List (String × α)) : Option α :=
  (es.find? fun e => e.1 == k).map Prod.snd

/-- Entries in strictly increasing key order. -/
def Increasing {α : Type _} (es : List (String × α)) : Prop :=
  es.Pairwise fun a b => a.1 < b.1

theorem mem_insertEntry {α : Type _} {k : String} {v : α} {es : List (String × α)}
    {e : String × α} (h : e ∈ insertEntry k v es) : e = (k, v) ∨ e ∈ es := by
  induction es with
  | nil => simpa [insertEntry] using h
  | cons d ds ih =>
    unfold insertEntry at h
    split at h
    · simpa using h
    · split at h <;> grind

theorem Increasing.insertEntry {α : Type _} (k : String) (v : α) {es : List (String × α)}
    (h : Increasing es) : Increasing (insertEntry k v es) := by
  induction es with
  | nil => simp [Increasing, RestDispatch.insertEntry]
  | cons d ds ih =>
    have hd := List.pairwise_cons.1 h
    unfold RestDispatch.insertEntry
    split
    · next hk =>
      refine List.pairwise_cons.2 ⟨fun e he => ?_, h⟩
      rcases List.mem_cons.1 he with rfl | he
      · exact hk
      · exact String.lt_trans hk (hd.1 e he)
    · split
      · next hk => exact List.pairwise_cons.2 ⟨fun e he => hk ▸ hd.1 e he, hd.2⟩
      · next hlt hne =>
        refine List.pairwise_cons.2 ⟨fun e he => ?_, ih hd.2⟩
        rcases mem_insertEntry he with rfl | he
        · exact Std.lt_of_le_of_ne (String.not_lt.1 hlt) (Ne.symm hne)
        · exact hd.1 e he

/-- Values under text keys. -/
structure Table (α : Type _) where
  entries : List (String × α)
  increasing : Increasing entries

namespace Table

variable {α : Type _}

/-- The table without entries. -/
def empty : Table α := ⟨[], List.Pairwise.nil⟩

/-- Writes a value under a key, over the value that stood there. -/
def insert (t : Table α) (k : String) (v : α) : Table α :=
  ⟨insertEntry k v t.entries, t.increasing.insertEntry k v⟩

/-- The value under a key. -/
def get? (t : Table α) (k : String) : Option α := lookupEntry k t.entries

/-- Whether a key has a value. -/
def contains (t : Table α) (k : String) : Bool := (t.get? k).isSome

/-- The keys, in increasing order. -/
def keys (t : Table α) : List String := t.entries.map Prod.fst

/-- The number of entries. -/
def size (t : Table α) : Nat := t.entries.length

/-- The table without the entry under a key. -/
def erase (t : Table α) (k : String) : Table α :=
  ⟨t.entries.filter fun e => e.1 ≠ k, t.increasing.filter _⟩

/-- The table of a list of entries, of which the last under a key counts. -/
def ofList (es : List (String × α)) : Table α :=
  es.foldl (fun t e => t.insert e.1 e.2) empty

/-- The entries of a table, then those of another over them. -/
def union (t u : Table α) : Table α :=
  u.entries.foldl (fun t e => t.insert e.1 e.2) t

instance : Inhabited (Table α) := ⟨empty⟩

instance [DecidableEq α] : DecidableEq (Table α) := fun s t =>
  if h : s.entries = t.entries then
    .isTrue (by cases s; cases t; cases h; rfl)
  else .isFalse (fun e => h (e ▸ rfl))

@[simp] theorem entries_empty : (empty : Table α).entries = [] := rfl

@[simp] theorem get?_empty (k : String) : (empty : Table α).get? k = none := rfl

theorem lookupEntry_insertEntry (k j : String) (v : α) {es : List (String × α)}
    (h : Increasing es) :
    lookupEntry j (insertEntry k v es) = if k = j then some v else lookupEntry j es := by
  induction es with
  | nil => by_cases hj : k = j <;> simp [lookupEntry, insertEntry, List.find?, hj]
  | cons d ds ih =>
    have hd := List.pairwise_cons.1 h
    have ih := ih hd.2
    simp only [lookupEntry] at ih ⊢
    unfold insertEntry
    split
    · by_cases hj : k = j <;> simp [List.find?_cons, hj]
    · split
      · next hk => by_cases hj : k = j <;> simp [hj, ← hk]
      · next hne =>
        by_cases hj : d.1 = j
        · have hk : k ≠ j := fun e => hne (e.trans hj.symm)
          simp [hj, hk]
        · have hb : (d.1 == j) = false := by simpa using hj
          simpa [List.find?_cons, hb] using ih

/-- A write shows under its own key and under no other. -/
@[simp] theorem get?_insert (t : Table α) (k j : String) (v : α) :
    (t.insert k v).get? j = if k = j then some v else t.get? j :=
  lookupEntry_insertEntry k j v t.increasing

/-- The keys stand in increasing order. -/
theorem increasing_keys (t : Table α) : t.keys.Pairwise (· < ·) := List.pairwise_map.2 t.increasing

theorem nodup_keys (t : Table α) : t.keys.Nodup := by
  refine t.increasing_keys.imp fun {j k} h e => ?_
  exact String.lt_irrefl k (e ▸ h)

/-- Among entries without a key twice, the value found under a key is the one that stands there. -/
theorem lookupEntry_eq_some_iff {es : List (String × α)} (h : (es.map Prod.fst).Nodup) {k : String}
    {v : α} : lookupEntry k es = some v ↔ (k, v) ∈ es := by
  induction es with
  | nil => simp [lookupEntry]
  | cons d ds ih =>
    obtain ⟨hd, hds⟩ := List.nodup_cons.1 h
    have ih := ih hds
    simp only [lookupEntry] at ih ⊢
    by_cases hk : d.1 = k
    · have hn : (k, v) ∉ ds := fun hm => hd (List.mem_map.2 ⟨(k, v), hm, hk.symm⟩)
      simp [hk, hn, Prod.ext_iff, eq_comm]
    · have hb : (d.1 == k) = false := by simpa using hk
      have hne : (k, v) ≠ d := fun e => hk (e ▸ rfl)
      simpa [List.find?_cons, hb, hne] using ih

/-- The keys are those under which there is a value. -/
theorem mem_keys_iff {t : Table α} {k : String} : k ∈ t.keys ↔ ∃ v, t.get? k = some v := by
  rw [keys, List.mem_map]
  constructor
  · rintro ⟨⟨j, v⟩, hm, rfl⟩
    exact ⟨v, (lookupEntry_eq_some_iff t.nodup_keys).2 hm⟩
  · rintro ⟨v, hv⟩
    exact ⟨(k, v), (lookupEntry_eq_some_iff t.nodup_keys).1 hv, rfl⟩

/-- Entries without a key twice, written one after the other, show over what a table held. -/
theorem get?_foldl_insert {es : List (String × α)} (h : (es.map Prod.fst).Nodup) (t : Table α)
    (k : String) :
    (es.foldl (fun t e => t.insert e.1 e.2) t).get? k = (lookupEntry k es).or (t.get? k) := by
  induction es generalizing t with
  | nil => rfl
  | cons d ds ih =>
    obtain ⟨hd, hds⟩ := List.nodup_cons.1 h
    rw [List.foldl_cons, ih hds, get?_insert]
    by_cases hk : d.1 = k
    · have hnone : lookupEntry k ds = none := by
        cases hl : lookupEntry k ds with
        | none => rfl
        | some v =>
          have hm := (lookupEntry_eq_some_iff hds).1 hl
          exact absurd (List.mem_map.2 ⟨(k, v), hm, hk.symm⟩) hd
      have hhead : lookupEntry k (d :: ds) = some d.2 := by simp [lookupEntry, hk]
      rw [hnone, hhead, if_pos hk]
      rfl
    · have hb : (d.1 == k) = false := by simpa using hk
      rw [if_neg hk]
      simp [lookupEntry, hb]

/-- A union shows the second table, and the first where the second holds nothing. -/
@[simp] theorem get?_union (t u : Table α) (k : String) :
    (t.union u).get? k = (u.get? k).or (t.get? k) :=
  get?_foldl_insert u.nodup_keys t k

/-- Increasing entries with the same members are the same entries. -/
theorem Increasing.eq_of_mem_iff {es fs : List (String × α)} (he : Increasing es)
    (hf : Increasing fs) (h : ∀ e, e ∈ es ↔ e ∈ fs) : es = fs := by
  induction es generalizing fs with
  | nil => exact (List.eq_nil_iff_forall_not_mem.2 fun e hm => by simpa using (h e).2 hm).symm
  | cons d ds ih =>
    cases fs with
    | nil => simpa using h d
    | cons g gs =>
      have hd := List.pairwise_cons.1 he
      have hg := List.pairwise_cons.1 hf
      have hdg : d = g := by
        rcases List.mem_cons.1 ((h d).1 (by simp)) with e | hm
        · exact e
        · rcases List.mem_cons.1 ((h g).2 (by simp)) with e | hm'
          · exact e.symm
          · exact absurd (String.lt_trans (hg.1 d hm) (hd.1 g hm')) (String.lt_irrefl _)
      subst hdg
      have hnd : d ∉ ds := fun hm => String.lt_irrefl _ (hd.1 d hm)
      have hng : d ∉ gs := fun hm => String.lt_irrefl _ (hg.1 d hm)
      refine congrArg (d :: ·) (ih hd.2 hg.2 fun e => ⟨fun hm => ?_, fun hm => ?_⟩)
      · exact (List.mem_cons.1 ((h e).1 (.tail _ hm))).resolve_left fun he => hnd (he ▸ hm)
      · exact (List.mem_cons.1 ((h e).2 (.tail _ hm))).resolve_left fun he => hng (he ▸ hm)

/-- A table is determined by what it holds. -/
theorem ext_get? {s t : Table α} (h : ∀ k, s.get? k = t.get? k) : s = t := by
  have he : s.entries = t.entries :=
    Increasing.eq_of_mem_iff s.increasing t.increasing fun e => by
      rw [← lookupEntry_eq_some_iff s.nodup_keys, ← lookupEntry_eq_some_iff t.nodup_keys]
      exact (congrArg (· = some e.2) (h e.1)).to_iff
  cases s
  cases t
  cases he
  rfl

/-- A table does not depend on the order of the entries it is made of, if no key is there twice. -/
theorem ofList_perm {es fs : List (String × α)} (hp : es.Perm fs)
    (h : (es.map Prod.fst).Nodup) : ofList es = ofList fs := by
  have hf : (fs.map Prod.fst).Nodup := (hp.map _).nodup_iff.1 h
  refine ext_get? fun k => ?_
  rw [ofList, ofList, get?_foldl_insert h, get?_foldl_insert hf]
  refine congrArg (Option.or · _) (Option.ext fun v => ?_)
  rw [lookupEntry_eq_some_iff h, lookupEntry_eq_some_iff hf]
  exact hp.mem_iff

end Table
end RestDispatch
