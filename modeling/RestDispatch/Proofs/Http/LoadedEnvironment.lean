import RestDispatch.Proofs.Http.LoadedTimeout
import RestDispatch.Proofs.Text.Fault

/-!
# Environments that are loaded

The values of an environment are octets, and those that are no text are taken for values that are
not there. An environment is told as it is if a variable that is set is never told to be missing nor
passed over, but is used or blamed for its value. `tells_iff` says which environments these are: a
base URL that is no text is told to be missing, and a timeout that is no text is left out.
-/

namespace RestDispatch
namespace HttpConfig

/-! ### Values in octets -/

/-- Octets that encode a URL. -/
def IsBase [DomainNames] (bs : Bytes) (u : Url) : Prop :=
  ∃ raw, Utf8.encode raw = bs ∧ Url.parse raw = .ok u

/-- Octets that encode a number of seconds that fits. -/
def IsTimeout (bs : Bytes) (n : UInt64) : Prop :=
  ∃ text, Utf8.encode text = bs ∧ IsSeconds text n.toNat

/-- What a result has to say of an environment: a variable is missing only if it is not set, and a
value that cannot be used is invalid; that of the timeout is looked at after that of the base URL,
and is waited for if it can be used. -/
structure Tells [DomainNames] (environment : String → Option Bytes)
    (result : Except ConfigError HttpConfig) : Prop where
  missing : ∀ name, result = .error (.missingEnv name) → environment name = none
  timeout : ∀ c bs, result = .ok c → environment timeoutVariable = some bs →
    ∃ n, IsTimeout bs n ∧ c.timeout = .ofSeconds n
  invalidBase : ∀ bs, environment baseUrlVariable = some bs → (¬ ∃ u, IsBase bs u) →
    ∃ m, result = .error (.invalidEnv baseUrlVariable m)
  invalidTimeout : ∀ base u bs, environment baseUrlVariable = some base → IsBase base u →
    environment timeoutVariable = some bs → (¬ ∃ n, IsTimeout bs n) →
      ∃ m, result = .error (.invalidEnv timeoutVariable m)

section Environment

variable {environment : String → Option Bytes} {name : String} {bs base : Bytes} {u : Url}

theorem IsTimeout.wellFormed {n : UInt64} (h : IsTimeout bs n) : Utf8.WellFormed bs := by
  obtain ⟨text, htext, -⟩ := h
  exact Utf8.wellFormed_iff_exists_encode.2 ⟨text, htext⟩

/-- What an environment has in text. -/
def texts (environment : String → Option Bytes) (name : String) : Option String :=
  (environment name).bind fun bs => (Utf8.decode bs).toOption

theorem fst_ofEnvironment [DomainNames] (environment : String → Option Bytes) :
    (ofEnvironment environment).1 = read (texts environment) :=
  fst_ofLookup _

theorem toOption_decode_eq_some_iff {s : String} :
    (Utf8.decode bs).toOption = some s ↔ Utf8.encode s = bs := by
  rw [← Utf8.decode_eq_ok_iff]
  cases Utf8.decode bs with
  | ok t => simp [Except.toOption]
  | error f => simp [Except.toOption]

theorem texts_eq_some_iff {s : String} :
    texts environment name = some s ↔ environment name = some (Utf8.encode s) := by
  simp only [texts, Option.bind_eq_some_iff, toOption_decode_eq_some_iff]
  exact ⟨fun ⟨_, h, hs⟩ => hs ▸ h, fun h => ⟨_, h, rfl⟩⟩

/-- A value that is no text counts as none. -/
theorem texts_eq_none_iff :
    texts environment name = none ↔
      ∀ bs, environment name = some bs → ¬ Utf8.WellFormed bs := by
  simp only [Option.eq_none_iff_forall_ne_some, ne_eq, texts_eq_some_iff,
    Utf8.wellFormed_iff_exists_encode]
  exact ⟨fun h bs hbs ⟨s, hs⟩ => h s (hs ▸ hbs), fun h s hs => h _ hs ⟨s, rfl⟩⟩

theorem exists_texts_of_wellFormed (h : environment name = some bs) (hw : Utf8.WellFormed bs) :
    ∃ s, Utf8.encode s = bs ∧ texts environment name = some s := by
  obtain ⟨s, rfl⟩ := Utf8.wellFormed_iff_exists_encode.1 hw
  exact ⟨s, rfl, texts_eq_some_iff.2 h⟩

theorem namesBase_of_isBase [DomainNames] (h : environment baseUrlVariable = some base)
    (hu : IsBase base u) : NamesBase (texts environment) u := by
  obtain ⟨raw, rfl, hparse⟩ := hu
  exact ⟨raw, texts_eq_some_iff.2 h, hparse⟩

/-- A lookup is told as it is if what it says is all that the environment says. -/
theorem tells_read [DomainNames]
    (hbase : ∀ bs, environment baseUrlVariable = some bs → Utf8.WellFormed bs)
    (htimeout : ∀ base u bs, environment baseUrlVariable = some base → IsBase base u →
      environment timeoutVariable = some bs → Utf8.WellFormed bs) :
    Tells environment (read (texts environment)) where
  missing name h := by
    have hl := loads_read (texts environment)
    rw [h] at hl
    cases hl with
    | noBase hnone =>
      rw [Option.eq_none_iff_forall_ne_some]
      exact fun bs hbs => texts_eq_none_iff.1 hnone bs hbs (hbase bs hbs)
  timeout c bs h hbs := by
    obtain ⟨u, n, ⟨raw, hraw, hparse⟩, hasks, rfl⟩ := read_eq_ok_iff.1 h
    have hw := htimeout _ u bs (texts_eq_some_iff.1 hraw) ⟨raw, rfl, hparse⟩ hbs
    obtain ⟨text, hencode, htext⟩ := exists_texts_of_wellFormed hbs hw
    exact ⟨n, ⟨text, hencode, (asksFor_iff_of_some htext).1 hasks⟩, rfl⟩
  invalidBase bs hbs hno := by
    obtain ⟨raw, hencode, hraw⟩ := exists_texts_of_wellFormed hbs (hbase bs hbs)
    exact exists_read_eq_invalidBase_iff.2 ⟨raw, hraw, fun u hu => hno ⟨u, raw, hencode, hu⟩⟩
  invalidTimeout base u bs hb hu hbs hno := by
    obtain ⟨text, hencode, htext⟩ := exists_texts_of_wellFormed hbs (htimeout base u bs hb hu hbs)
    refine exists_read_eq_invalidTimeout_iff.2
      ⟨⟨u, namesBase_of_isBase hb hu⟩, text, htext, fun ⟨n, hlt, hn⟩ => hno ?_⟩
    exact ⟨n.toUInt64, text, hencode, (UInt64.toNat_ofNat_of_lt' hlt).symm ▸ hn⟩

/-- A base URL that is no text is told to be missing. -/
theorem read_of_not_wellFormed [DomainNames] (h : environment baseUrlVariable = some bs)
    (hw : ¬ Utf8.WellFormed bs) :
    read (texts environment) = .error (.missingEnv baseUrlVariable) := by
  refine read_eq_missing_iff.2 (texts_eq_none_iff.2 fun bs' h' => ?_)
  cases h.symm.trans h'
  exact hw

/-- A timeout that is no text is left out. -/
theorem read_of_timeout_not_wellFormed [DomainNames] (hb : environment baseUrlVariable = some base)
    (hu : IsBase base u) (h : environment timeoutVariable = some bs)
    (hw : ¬ Utf8.WellFormed bs) : read (texts environment) = .ok (ofUrl u) := by
  refine read_eq_ok_iff.2 ⟨u, 30, namesBase_of_isBase hb hu, .inl ⟨?_, rfl⟩, rfl⟩
  refine texts_eq_none_iff.2 fun bs' h' => ?_
  cases h.symm.trans h'
  exact hw

end Environment

/-- **Which environments are told as they are.** Exactly those whose base URL is a text if it is
set, and whose timeout is a text if it is set and the base URL can be used. Otherwise a variable
that is set counts as one that is not: the base URL is told to be missing, or the configuration is
loaded with the timeout of an environment that sets none. -/
theorem tells_iff [DomainNames] (environment : String → Option Bytes) :
    (Tells environment (ofEnvironment environment).1 ↔
      (∀ bs, environment baseUrlVariable = some bs → Utf8.WellFormed bs) ∧
        ∀ base u bs, environment baseUrlVariable = some base → IsBase base u →
          environment timeoutVariable = some bs → Utf8.WellFormed bs) ∧
      (∀ bs, environment baseUrlVariable = some bs → ¬ Utf8.WellFormed bs →
        (ofEnvironment environment).1 = .error (.missingEnv baseUrlVariable)) ∧
      ∀ base u bs, environment baseUrlVariable = some base → IsBase base u →
        environment timeoutVariable = some bs → ¬ Utf8.WellFormed bs →
          (ofEnvironment environment).1 = .ok (ofUrl u) := by
  simp only [fst_ofEnvironment]
  refine ⟨⟨fun h => ⟨fun bs hbs => ?_, fun base u bs hb hu hbs => ?_⟩,
      fun ⟨hbase, htimeout⟩ => tells_read hbase htimeout⟩,
    fun _ => read_of_not_wellFormed, fun _ _ _ => read_of_timeout_not_wellFormed⟩
  · by_contra hw
    exact nomatch hbs.symm.trans (h.missing _ (read_of_not_wellFormed hbs hw))
  · by_contra hw
    obtain ⟨n, hn, -⟩ := h.timeout _ bs (read_of_timeout_not_wellFormed hb hu hbs hw) hbs
    exact hw hn.wellFormed

/-- The variables of an environment that sets both, in octets. -/
def bothOctets (base timeout : Bytes) (name : String) : Option Bytes :=
  if name = baseUrlVariable then some base
  else if name = timeoutVariable then some timeout else none

theorem isBase_apiBase :
    IsBase (Utf8.encode "https://api.example.com/v1/") HttpTransport.apiBase := by
  obtain ⟨raw, hraw, hparse⟩ := namesBase_bothVariables ""
  cases hraw
  exact ⟨_, rfl, hparse⟩

theorem not_wellFormed_octet : ¬ Utf8.WellFormed [0xFF] := by
  have hfault : Utf8.HasFault [0xFF] (.invalid 1 0) := by
    rw [← Utf8.decode_eq_error_iff, Utf8.decode, Utf8.decodeFrom]
    rfl
  exact fun hw => Utf8.not_hasFault hw _ hfault

/-- A timeout in digits is told as it is, and one of an octet that begins no character is left
out. -/
theorem tells_iff_apiBase :
    let environment := bothOctets (Utf8.encode "https://api.example.com/v1/")
    Tells (environment (Utf8.encode "12")) (ofEnvironment (environment (Utf8.encode "12"))).1 ∧
      (ofEnvironment (environment [0xFF])).1 = .ok (ofUrl HttpTransport.apiBase) := by
  intro environment
  have hencode (s : String) : Utf8.WellFormed (Utf8.encode s) :=
    Utf8.wellFormed_iff_exists_encode.2 ⟨s, rfl⟩
  constructor
  · refine (tells_iff _).1.2 ⟨?_, ?_⟩
    · rintro bs ⟨⟩
      exact hencode _
    · rintro base u bs - - ⟨⟩
      exact hencode _
  · exact (tells_iff (environment [0xFF])).2.2 _ _ _ rfl isBase_apiBase rfl not_wellFormed_octet

/-- A variable that is set is taken for one that is not: with a timeout of one octet that begins no
character the configuration waits 30 seconds, and with such a base URL it is told to be missing. -/
theorem octet_not_told :
    let loaded := bothOctets (Utf8.encode "https://api.example.com/v1/") [0xFF]
    let refused := bothOctets [0xFF] (Utf8.encode "12")
    (loaded timeoutVariable = some [0xFF] ∧
        (ofEnvironment loaded).1 = .ok ⟨HttpTransport.apiBase, .ofSeconds 30, []⟩ ∧
        ¬ Tells loaded (ofEnvironment loaded).1) ∧
      refused baseUrlVariable = some [0xFF] ∧
        (ofEnvironment refused).1 = .error (.missingEnv baseUrlVariable) ∧
        ¬ Tells refused (ofEnvironment refused).1 := by
  intro loaded refused
  have hloaded : (ofEnvironment loaded).1 = .ok (ofUrl HttpTransport.apiBase) :=
    (fst_ofEnvironment loaded).trans
      (read_of_timeout_not_wellFormed rfl isBase_apiBase rfl not_wellFormed_octet)
  have hrefused : (ofEnvironment refused).1 = .error (.missingEnv baseUrlVariable) :=
    (fst_ofEnvironment refused).trans (read_of_not_wellFormed rfl not_wellFormed_octet)
  refine ⟨⟨rfl, hloaded, fun h => ?_⟩, rfl, hrefused, fun h => ?_⟩
  · obtain ⟨n, hn, -⟩ := h.timeout _ [0xFF] hloaded rfl
    exact not_wellFormed_octet hn.wellFormed
  · exact nomatch h.missing _ hrefused

end HttpConfig
end RestDispatch
