import Mathlib.Algebra.Group.Nat.Defs
import Mathlib.Data.List.TakeWhile
import RestDispatch.Proofs.Decimal.Bounded
import RestDispatch.Proofs.Http.LoadedBase

/-!
# Configurations that are loaded

A lookup has to give a text for the base URL that is a URL, and may give one for the timeout that is
a number of seconds between blanks. `ofLookup_grammar` says for every lookup what is loaded, and
otherwise which of the two variables is to blame: the base URL is looked at first, and a number of
seconds is read as it is written or refused.
-/

namespace RestDispatch
namespace Text

/-- Blanks around a text do not count, if it neither begins nor ends with one itself. -/
theorem trimBlank_append {before core after : List Char} (hb : ∀ c ∈ before, isBlank c = true)
    (ha : ∀ c ∈ after, isBlank c = true) (hcore : trimBlank core = core) :
    trimBlank (before ++ core ++ after) = core := by
  have hend (ds : List Char) : dropBlankEnd (ds ++ after) = dropBlankEnd ds := by
    rw [dropBlankEnd, List.reverse_append,
      List.dropWhile_append_of_pos fun c hc => ha c (List.mem_reverse.1 hc), dropBlankEnd]
  rw [trimBlank, List.append_assoc, List.dropWhile_append_of_pos hb]
  cases core with
  | nil => rw [List.nil_append, List.dropWhile_eq_nil_iff.2 ha]; rfl
  | cons c cs =>
    have hc : isBlank c = false := (trimBlank_eq_self_iff.1 hcore).1 c rfl
    rw [trimBlank, List.dropWhile_cons_of_neg (by simp [hc])] at hcore
    rw [List.cons_append, List.dropWhile_cons_of_neg (by simp [hc]), ← List.cons_append, hend,
      hcore]

/-- A text is what is left of it without the blanks at its ends, between blanks. -/
theorem exists_eq_append_trimBlank (cs : List Char) :
    ∃ before after, cs = before ++ trimBlank cs ++ after ∧ (∀ c ∈ before, isBlank c = true) ∧
      ∀ c ∈ after, isBlank c = true := by
  have hsplit (ds : List Char) :
      dropBlankEnd ds ++ (ds.reverse.takeWhile isBlank).reverse = ds := by
    rw [dropBlankEnd, ← List.reverse_append, List.takeWhile_append_dropWhile, List.reverse_reverse]
  refine ⟨cs.takeWhile isBlank, ((cs.dropWhile isBlank).reverse.takeWhile isBlank).reverse, ?_,
    fun c hc => List.mem_takeWhile_imp hc,
    fun c hc => List.mem_takeWhile_imp (List.mem_reverse.1 hc)⟩
  rw [trimBlank, List.append_assoc, hsplit, List.takeWhile_append_dropWhile]

end Text

namespace HttpConfig

/-! ### Numbers of seconds -/

/-- A text that is the numeral of a number between blanks. -/
def IsSeconds (text : String) (n : Nat) : Prop :=
  ∃ before numeral after, text.toList = before ++ numeral ++ after ∧
    (∀ c ∈ before, Text.isBlank c = true) ∧ (∀ c ∈ after, Text.isBlank c = true) ∧
      Decimal.IsNumeral numeral n

/-- No character of a numeral is a blank. -/
theorem trimBlank_of_isNumeral {cs : List Char} {n : Nat} (h : Decimal.IsNumeral cs n) :
    Text.trimBlank cs = cs := by
  obtain ⟨ds, hcs, hds⟩ := h
  have hdigit {c : Char} (hc : c.isDigit = true) : Text.isBlank c = false := by
    obtain ⟨hlo, hhi⟩ := Decimal.toNat_of_isDigit hc
    have hall : ∀ n < 58, 48 ≤ n → Text.isBlank (Char.ofNat n) = false := by decide
    rw [← Char.ofNat_toNat c]
    exact hall _ (by omega) hlo
  have hmem : ∀ c ∈ cs, Text.isBlank c = false := by
    rcases hcs with rfl | rfl
    · exact fun c hc => hdigit (hds.digits c hc)
    · exact List.forall_mem_cons.2 ⟨by decide, fun c hc => hdigit (hds.digits c hc)⟩
  exact Text.trimBlank_eq_self_iff.2 ⟨fun c hc => hmem c (List.mem_of_mem_head? hc),
    fun c hc => hmem c (List.mem_of_mem_getLast? hc)⟩

/-- Blanks aside, a number of seconds is the numeral alone. -/
theorem isSeconds_iff {text : String} {n : Nat} :
    IsSeconds text n ↔ Decimal.IsNumeral (Text.trimBlank text.toList) n := by
  constructor
  · rintro ⟨before, numeral, after, htext, hb, ha, hn⟩
    rwa [htext, Text.trimBlank_append hb ha (trimBlank_of_isNumeral hn)]
  · intro h
    obtain ⟨before, after, htext, hb, ha⟩ := Text.exists_eq_append_trimBlank text.toList
    exact ⟨before, _, after, htext, hb, ha, h⟩

/-- A text is at most one number of seconds. -/
theorem IsSeconds.unique {text : String} {m n : Nat} (hm : IsSeconds text m)
    (hn : IsSeconds text n) : m = n :=
  (isSeconds_iff.1 hm).unique (isSeconds_iff.1 hn)

/-- Every way to write a number in digits is a number of seconds. -/
theorem isSeconds_toDigits {text : String} (before after : List Char) (zeros n : Nat)
    (hb : ∀ c ∈ before, Text.isBlank c = true) (ha : ∀ c ∈ after, Text.isBlank c = true)
    (htext : text.toList = before ++ (List.replicate zeros '0' ++ Nat.toDigits 10 n) ++ after) :
    IsSeconds text n :=
  ⟨before, _, after, htext, hb, ha, _, .inl rfl, Decimal.denotes_toDigits zeros n⟩

/-- The timeouts that are read are the numbers of seconds that fit. -/
theorem readTimeout_eq_ok_iff {text : String} {d : Duration} :
    readTimeout text = .ok d ↔ ∃ n : UInt64, IsSeconds text n.toNat ∧ d = .ofSeconds n := by
  have hread (n : Nat) : Decimal.readBounded (2 ^ 64) (Text.trimBlank text.toList) = .ok n ↔
      IsSeconds text n ∧ n < 2 ^ 64 := by
    rw [Decimal.readBounded_eq_ok_iff (by decide), isSeconds_iff]
  unfold readTimeout
  split
  · next n hn =>
    obtain ⟨hn, hlt⟩ := (hread n).1 hn
    have htoNat : n.toUInt64.toNat = n := UInt64.toNat_ofNat_of_lt' hlt
    constructor
    · rintro ⟨⟩
      exact ⟨n.toUInt64, htoNat.symm ▸ hn, rfl⟩
    · rintro ⟨m, hm, rfl⟩
      rw [hn.unique hm, Nat.toUInt64, UInt64.ofNat_toNat]
  · next f hf =>
    refine ⟨nofun, fun ⟨m, hm, _⟩ => ?_⟩
    cases hf.symm.trans ((hread m.toNat).2 ⟨hm, m.toNat_lt⟩)

/-- A text that is no timeout is told as the value of the variable. -/
theorem exists_of_readTimeout_eq_error {text : String} {e : ConfigError}
    (h : readTimeout text = .error e) : ∃ m, e = .invalidEnv timeoutVariable m := by
  unfold readTimeout at h
  split at h
  · cases h
  · cases h
    exact ⟨_, rfl⟩

/-! ### Lookups -/

/-- A lookup whose base URL is a URL. -/
def NamesBase [DomainNames] (lookup : String → Option String) (u : Url) : Prop :=
  ∃ raw, lookup baseUrlVariable = some raw ∧ Url.parse raw = .ok u

/-- A lookup that asks for a number of seconds; one that says nothing asks for 30. -/
def AsksFor (lookup : String → Option String) (n : Nat) : Prop :=
  lookup timeoutVariable = none ∧ n = 30 ∨
    ∃ text, lookup timeoutVariable = some text ∧ IsSeconds text n

theorem fst_ofLookup [DomainNames] (lookup : String → Option String) :
    (ofLookup lookup).1 = read lookup := by
  unfold ofLookup
  split <;> next h => rw [h]

/-- The outcomes of a lookup: the base URL is looked at before the timeout. -/
inductive Loads [DomainNames] (lookup : String → Option String) :
    Except ConfigError HttpConfig → Prop
  | noBase (h : lookup baseUrlVariable = none) :
      Loads lookup (.error (.missingEnv baseUrlVariable))
  | badBase {raw : String} {f : UrlFault} (h : lookup baseUrlVariable = some raw)
      (hf : Url.parse raw = .error f) :
      Loads lookup (.error (.invalidEnv baseUrlVariable f.message))
  | badTimeout {u : Url} {text : String} {m : String} (hu : NamesBase lookup u)
      (h : lookup timeoutVariable = some text) (hn : ¬ ∃ n < 2 ^ 64, IsSeconds text n) :
      Loads lookup (.error (.invalidEnv timeoutVariable m))
  | loaded {u : Url} {n : UInt64} (hu : NamesBase lookup u) (hn : AsksFor lookup n.toNat) :
      Loads lookup (.ok ⟨u, .ofSeconds n, []⟩)

theorem loads_read [DomainNames] (lookup : String → Option String) :
    Loads lookup (read lookup) := by
  unfold read
  split
  · next h => exact .noBase h
  · next raw h =>
    cases hu : Url.parse raw with
    | error f =>
      simp only [readBaseUrl, hu]
      exact .badBase h hu
    | ok u =>
      simp only [readBaseUrl, hu]
      split
      · next ht => exact .loaded (n := 30) ⟨raw, h, hu⟩ (.inl ⟨ht, rfl⟩)
      · next text ht =>
        cases hd : readTimeout text with
        | error e =>
          obtain ⟨m, rfl⟩ := exists_of_readTimeout_eq_error hd
          refine .badTimeout ⟨raw, h, hu⟩ ht fun ⟨n, hlt, hn⟩ => ?_
          have hok := readTimeout_eq_ok_iff.2
            ⟨n.toUInt64, (UInt64.toNat_ofNat_of_lt' hlt).symm ▸ hn, rfl⟩
          cases hd.symm.trans hok
        | ok d =>
          obtain ⟨n, hn, rfl⟩ := readTimeout_eq_ok_iff.1 hd
          exact .loaded ⟨raw, h, hu⟩ (.inr ⟨text, ht, hn⟩)

/-- A lookup names one base URL. -/
theorem NamesBase.unique [DomainNames] {lookup : String → Option String} {u v : Url}
    (hu : NamesBase lookup u) (hv : NamesBase lookup v) : u = v := by
  obtain ⟨raw, hraw, hu⟩ := hu
  obtain ⟨raw', hraw', hv⟩ := hv
  cases hraw.symm.trans hraw'
  exact Except.ok.inj (hu.symm.trans hv)

/-- A lookup that has a text for the timeout asks for what that says. -/
theorem asksFor_iff_of_some {lookup : String → Option String} {text : String}
    (h : lookup timeoutVariable = some text) {n : Nat} :
    AsksFor lookup n ↔ IsSeconds text n := by
  constructor
  · rintro (⟨hnone, -⟩ | ⟨text', htext, hn⟩)
    · cases h.symm.trans hnone
    · cases h.symm.trans htext
      exact hn
  · exact fun hn => .inr ⟨text, h, hn⟩

/-- A lookup asks for one number of seconds. -/
theorem AsksFor.unique {lookup : String → Option String} {m n : Nat} (hm : AsksFor lookup m)
    (hn : AsksFor lookup n) : m = n := by
  cases h : lookup timeoutVariable with
  | none => rw [AsksFor, h] at hm hn; simp_all
  | some text => exact ((asksFor_iff_of_some h).1 hm).unique ((asksFor_iff_of_some h).1 hn)

/-- The base URL is missing if the lookup does not know it. -/
theorem read_eq_missing_iff [DomainNames] {lookup : String → Option String} :
    read lookup = .error (.missingEnv baseUrlVariable) ↔ lookup baseUrlVariable = none := by
  have h := loads_read lookup
  generalize read lookup = e at h
  cases h with
  | noBase h => simp [h]
  | badBase h => simp [h]
  | badTimeout hu =>
    obtain ⟨raw, hraw, -⟩ := hu
    simp [hraw]
  | loaded hu =>
    obtain ⟨raw, hraw, -⟩ := hu
    simp [hraw]

theorem baseUrlVariable_ne_timeoutVariable : baseUrlVariable ≠ timeoutVariable := by decide

/-- The base URL is to blame if it is there and no URL. -/
theorem exists_read_eq_invalidBase_iff [DomainNames] {lookup : String → Option String} :
    (∃ m, read lookup = .error (.invalidEnv baseUrlVariable m)) ↔
      ∃ raw, lookup baseUrlVariable = some raw ∧ ∀ u, Url.parse raw ≠ .ok u := by
  have h := loads_read lookup
  generalize read lookup = e at h
  cases h with
  | noBase h => simp [h]
  | badBase h hf => simp [h, hf]
  | badTimeout hu =>
    obtain ⟨raw, hraw, hparse⟩ := hu
    simp [hraw, hparse, baseUrlVariable_ne_timeoutVariable.symm]
  | loaded hu =>
    obtain ⟨raw, hraw, hparse⟩ := hu
    simp [hraw, hparse]

/-- The timeout is to blame if the base URL is not, and the timeout is no number that fits. -/
theorem exists_read_eq_invalidTimeout_iff [DomainNames] {lookup : String → Option String} :
    (∃ m, read lookup = .error (.invalidEnv timeoutVariable m)) ↔
      (∃ u, NamesBase lookup u) ∧
        ∃ text, lookup timeoutVariable = some text ∧ ¬ ∃ n < 2 ^ 64, IsSeconds text n := by
  have h := loads_read lookup
  generalize read lookup = e at h
  cases h with
  | noBase h => simp [NamesBase, h]
  | badBase h hf => simp [NamesBase, h, hf, baseUrlVariable_ne_timeoutVariable]
  | badTimeout hu h hn => exact ⟨fun _ => ⟨⟨_, hu⟩, _, h, hn⟩, fun _ => ⟨_, rfl⟩⟩
  | @loaded u n hu hn =>
    refine ⟨nofun, fun ⟨_, text, h, hnone⟩ => ?_⟩
    exact absurd ⟨n.toNat, n.toNat_lt, (asksFor_iff_of_some h).1 hn⟩ hnone

/-- A lookup that names a base URL and asks for a number of seconds that fits loads as these. -/
theorem read_eq_ok_iff [DomainNames] {lookup : String → Option String} {c : HttpConfig} :
    read lookup = .ok c ↔ ∃ u, ∃ n : UInt64,
      NamesBase lookup u ∧ AsksFor lookup n.toNat ∧ c = ⟨u, .ofSeconds n, []⟩ := by
  have h := loads_read lookup
  generalize read lookup = e at h
  cases h with
  | noBase h => simp [NamesBase, h]
  | badBase h hf => simp [NamesBase, h, hf]
  | badTimeout hu h hn =>
    refine ⟨nofun, fun ⟨_, n, _, hask, _⟩ => ?_⟩
    exact absurd ⟨n.toNat, n.toNat_lt, (asksFor_iff_of_some h).1 hask⟩ hn
  | @loaded u n hu hn =>
    constructor
    · rintro ⟨⟩
      exact ⟨u, n, hu, hn, rfl⟩
    · rintro ⟨v, m, hv, hm, rfl⟩
      rw [hu.unique hv, UInt64.toNat_inj.1 (hn.unique hm)]

/-- **What a lookup loads as.** The base URL is missing, or no URL, or the timeout is no number of
seconds below `2 ^ 64`, in this order and for no other reason; any other lookup loads, with just
what it says. A number of seconds is read as it is written, with any blanks around it and any zeros
in front, or is refused because it is too great. -/
theorem ofLookup_grammar [DomainNames] (lookup : String → Option String) :
    ((ofLookup lookup).1 = .error (.missingEnv baseUrlVariable) ↔
      lookup baseUrlVariable = none) ∧
    ((∃ m, (ofLookup lookup).1 = .error (.invalidEnv baseUrlVariable m)) ↔
      ∃ raw, lookup baseUrlVariable = some raw ∧ ∀ u, Url.parse raw ≠ .ok u) ∧
    ((∃ m, (ofLookup lookup).1 = .error (.invalidEnv timeoutVariable m)) ↔
      (∃ u, NamesBase lookup u) ∧
        ∃ text, lookup timeoutVariable = some text ∧ ¬ ∃ n < 2 ^ 64, IsSeconds text n) ∧
    (∀ c, (ofLookup lookup).1 = .ok c ↔ ∃ u, ∃ n : UInt64,
      NamesBase lookup u ∧ AsksFor lookup n.toNat ∧ c = ⟨u, .ofSeconds n, []⟩) ∧
    ∀ u text zeros n before after, NamesBase lookup u → lookup timeoutVariable = some text →
      (∀ c ∈ before, Text.isBlank c = true) → (∀ c ∈ after, Text.isBlank c = true) →
      text.toList = before ++ (List.replicate zeros '0' ++ Nat.toDigits 10 n) ++ after →
      if n < 2 ^ 64 then (ofLookup lookup).1 = .ok ⟨u, .ofSeconds n.toUInt64, []⟩
      else ∃ m, (ofLookup lookup).1 = .error (.invalidEnv timeoutVariable m) := by
  rw [fst_ofLookup]
  refine ⟨read_eq_missing_iff, exists_read_eq_invalidBase_iff, exists_read_eq_invalidTimeout_iff,
    fun c => read_eq_ok_iff, ?_⟩
  intro u text zeros n before after hu h hb ha htext
  have hn := isSeconds_toDigits before after zeros n hb ha htext
  split
  · next hlt =>
    rw [read_eq_ok_iff]
    refine ⟨u, n.toUInt64, hu, ?_, rfl⟩
    rw [asksFor_iff_of_some h, UInt64.toNat_ofNat_of_lt' hlt]
    exact hn
  · next hge =>
    rw [exists_read_eq_invalidTimeout_iff]
    refine ⟨⟨u, hu⟩, text, h, fun ⟨m, hlt, hm⟩ => hge ?_⟩
    rwa [hn.unique hm]

/-- The variables of an environment that sets both. -/
def bothVariables (base timeout name : String) : Option String :=
  if name = baseUrlVariable then some base
  else if name = timeoutVariable then some timeout else none

theorem namesBase_bothVariables (timeout : String) :
    NamesBase (bothVariables "https://api.example.com/v1/" timeout) HttpTransport.apiBase :=
  ⟨_, rfl, by decide +kernel⟩

/-- Zeros in front and blanks around make no difference; one number too great is refused. -/
theorem loads_padded :
    let lookup := bothVariables "https://api.example.com/v1/"
    (∀ text, NamesBase (lookup text) HttpTransport.apiBase ∧
      lookup text timeoutVariable = some text) ∧
    (ofLookup (lookup " 0045\n")).1 = .ok ⟨HttpTransport.apiBase, .ofSeconds 45, []⟩ ∧
      ∃ m, (ofLookup (lookup "18446744073709551616")).1 =
        .error (.invalidEnv timeoutVariable m) := by
  intro lookup
  refine ⟨fun text => ⟨namesBase_bothVariables text, rfl⟩, ?_, ?_⟩
  · exact (ofLookup_grammar _).2.2.2.2 _ " 0045\n" 2 45 [' '] ['\n'] (namesBase_bothVariables _) rfl
      (List.forall_mem_singleton.2 rfl) (List.forall_mem_singleton.2 rfl) (by decide)
  · exact (ofLookup_grammar _).2.2.2.2 _ "18446744073709551616" 0 (2 ^ 64) [] []
      (namesBase_bothVariables _) rfl nofun nofun (by decide)

end HttpConfig
end RestDispatch
