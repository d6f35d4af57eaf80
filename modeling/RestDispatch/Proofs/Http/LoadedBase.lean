import RestDispatch.Proofs.Http.Origin
import RestDispatch.Proofs.Url.Parsed

/-!
# Bases that are loaded

A base URL that is read from a variable may be any URL, also one to which nothing is relative: the
text `localhost:8080` is a URL of the scheme `localhost`. `joins_iff_isHierarchical` says which
texts load as a base that plain paths can be joined to, and that under any other base every call
fails.
-/

namespace RestDispatch
namespace Url

/-! ### Plain paths -/

/-- A character of a plain path: a letter, a digit, or one of three signs. Characters beyond ASCII
count as letters. -/
def isPathChar (c : Char) : Bool :=
  c.isAlphanum || c == '-' || c == '_' || c == '/' || 0x80 ≤ c.toNat

/-- Whether a text is a path without a slash at its head. -/
def IsPlainPath (text : String) : Prop :=
  text.toList ≠ [] ∧ text.toList.head? ≠ some '/' ∧ text.toList.all isPathChar = true

instance (text : String) : Decidable (IsPlainPath text) := inferInstanceAs (Decidable (_ ∧ _ ∧ _))

theorem IsPlainPath.isPathChar_of_mem {text : String} (h : IsPlainPath text) {c : Char}
    (hc : c ∈ text.toList) : isPathChar c = true :=
  List.all_eq_true.1 h.2.2 c hc

theorem lt_of_isPathChar {c : Char} (h : isPathChar c = true) : 0x20 < c.toNat := by
  by_contra hc
  have hall : ∀ n ≤ 0x20, isPathChar (Char.ofNat n) = false := by decide
  rw [← Char.ofNat_toNat c, hall _ (Nat.not_lt.1 hc)] at h
  cases h

/-- A plain path counts in full. -/
theorem IsPlainPath.significant {text : String} (h : IsPlainPath text) :
    significant text.toList = text.toList :=
  significant_of_forall_lt fun _ hc => lt_of_isPathChar (h.isPathChar_of_mem hc)

/-- A plain path begins with a character that is part of a path. -/
theorem IsPlainPath.exists_cons {text : String} (h : IsPlainPath text) :
    ∃ c cs, text.toList = c :: cs ∧ (∀ kind, isSlash kind c = false) ∧ endsPath c = false := by
  obtain ⟨c, cs, hcs⟩ := List.exists_cons_of_ne_nil h.1
  have hslash : c ≠ '/' := by
    rintro rfl
    exact h.2.1 (congrArg List.head? hcs)
  have hne {d : Char} (hd : isPathChar d = false) : c ≠ d := by
    rintro rfl
    rw [h.isPathChar_of_mem (hcs ▸ List.mem_cons_self)] at hd
    cases hd
  refine ⟨c, cs, hcs, fun kind => ?_, ?_⟩
  · simp [isSlash, hslash, hne (d := '\\') (by decide)]
  · simp [endsPath, hne (d := '?') (by decide), hne (d := '#') (by decide)]

/-- A text without a colon begins with no scheme. -/
theorem takeScheme?_eq_none {cs : List Char} (h : ':' ∉ cs) : takeScheme? cs = none := by
  unfold takeScheme?
  dsimp only
  split
  · next hd => exact absurd (List.mem_of_mem_drop (hd ▸ List.mem_cons_self)) h
  · rfl

/-! ### Texts without a scheme -/

/-- A text without a scheme does not stand by itself. -/
theorem parse_of_takeScheme?_eq_none [DomainNames] {text : String}
    (h : takeScheme? (significant text.toList) = none) :
    parse text = .error .relativeWithoutBase := by
  simp only [parse, read, h]

/-- A text without a scheme that is no fragment alone is relative to a base that is not opaque. -/
theorem join_of_takeScheme?_eq_none [DomainNames] (base : Url) {text : String}
    (h : takeScheme? (significant text.toList) = none)
    (hf : (significant text.toList).head? ≠ some '#') :
    base.join text =
      if base.isOpaque then .error .relativeToOpaqueBase
      else if base.kind = .file then readFile (some base) (significant text.toList)
      else readRelative base (significant text.toList) := by
  simp only [join, read, h]
  split
  · next hs => exact absurd (congrArg List.head? hs) hf
  · rfl

/-- A text without a slash at its head is put behind the path of a file. -/
theorem readFile_of_isSlash_eq_false [DomainNames] (base : Option Url) {c : Char}
    (hc : isSlash .file c = false) (cs : List Char) :
    readFile base (c :: cs) = .ok (readFile.relative base (c :: cs)) := by
  cases cs <;> simp [readFile, hc]

/-- A plain path is relative, and can be joined to a base exactly if that is not opaque. -/
theorem join_of_isPlainPath [DomainNames] (base : Url) {text : String} (h : IsPlainPath text) :
    parse text = .error .relativeWithoutBase ∧
      (base.isOpaque = true → base.join text = .error .relativeToOpaqueBase) ∧
      (base.isOpaque = false → ∃ u, base.join text = .ok u) := by
  obtain ⟨c, cs, hcs, hslash, hends⟩ := h.exists_cons
  have hnone : takeScheme? (significant text.toList) = none := by
    rw [h.significant]
    exact takeScheme?_eq_none fun hm => absurd (h.isPathChar_of_mem hm) (by decide)
  have hfragment : (significant text.toList).head? ≠ some '#' := by
    rw [h.significant, hcs]
    rintro ⟨⟩
    cases hends
  have hjoin := join_of_takeScheme?_eq_none base hnone hfragment
  rw [h.significant, hcs] at hjoin
  -- a base that is not opaque is one of files, or one that the text is put behind the path of
  refine ⟨parse_of_takeScheme?_eq_none hnone, fun ho => ?_, fun ho => ?_⟩
  · rw [hjoin, if_pos ho]
  · rw [hjoin, if_neg (by simp [ho])]
    split
    · exact ⟨_, readFile_of_isSlash_eq_false _ (hslash .file) cs⟩
    · exact ⟨_, readRelative_plain base hends (hslash .web) cs⟩

/-- A base with neither a scheme of the web nor that of files changes nothing of what a scheme and
the text after it are read as. -/
theorem readScheme_of_kind_eq_other [DomainNames] {base : Url} (hb : base.kind = .other)
    (scheme : String) (cs : List Char) :
    readScheme (some base) scheme cs = readScheme none scheme cs := by
  have hne {s : String} (hs : SchemeKind.ofScheme s ≠ .other) : base.scheme ≠ s := by
    rintro rfl
    exact hs hb
  have hfile : (some base).filter (·.scheme == "file") = none := by
    simp [Option.filter, hne (s := "file") (by decide)]
  unfold readScheme
  split
  · rw [hfile, Option.filter_none]
  · next hk => simp [hne (s := scheme) (by rw [hk]; decide)]
  · rfl

/-- Nothing is joined to an opaque base but a fragment, and texts that stand by themselves. -/
theorem head?_of_join_isOpaque [DomainNames] {base u : Url} (ho : base.isOpaque = true)
    (hb : base.kind = .other) {text : String} (hp : ∀ v, parse text ≠ .ok v)
    (h : base.join text = .ok u) :
    (significant text.toList).head? = some '#' := by
  cases ht : takeScheme? (significant text.toList) with
  | none =>
    by_contra hf
    rw [join_of_takeScheme?_eq_none base ht hf, if_pos ho] at h
    cases h
  | some p =>
    have hr : readScheme (some base) p.1 p.2 = .ok u := by simpa only [join, read, ht] using h
    rw [readScheme_of_kind_eq_other hb] at hr
    exact absurd (by simpa only [parse, read, ht] using hr) (hp u)

end Url

namespace HttpConfig

/-- A configuration that is loaded has the base URL that its variable names. -/
theorem parse_of_ofLookup [DomainNames] {lookup : String → Option String} {c : HttpConfig}
    {log : Log} (h : ofLookup lookup = (.ok c, log)) :
    ∃ raw, lookup baseUrlVariable = some raw ∧ Url.parse raw = .ok c.baseUrl := by
  have hread : read lookup = .ok c := by
    unfold ofLookup at h
    split at h
    · next hr =>
      cases h
      exact hr
    · cases h
  unfold read at hread
  split at hread
  · cases hread
  · next raw hraw =>
    refine ⟨raw, hraw, ?_⟩
    cases hb : readBaseUrl raw with
    | error e => rw [hb] at hread; cases hread
    | ok u =>
      have hparse : Url.parse raw = .ok u := mapError_eq_ok_iff.1 hb
      simp only [hb, bind, Except.bind] at hread
      split at hread
      · cases hread
        exact hparse
      split at hread
      · cases hread
      · cases hread
        exact hparse

/-- Every text that is a URL loads. -/
theorem ofLookup_of_parse [DomainNames] {lookup : String → Option String} {raw : String} {u : Url}
    (hb : lookup baseUrlVariable = some raw) (ht : lookup timeoutVariable = none)
    (h : Url.parse raw = .ok u) : ofLookup lookup = (.ok (ofUrl u), [configured (ofUrl u)]) := by
  have hread : readBaseUrl raw = .ok u := mapError_eq_ok_iff.2 h
  have hok : read lookup = .ok (ofUrl u) := by
    simp only [read, hb, ht, hread]
    rfl
  rw [ofLookup, hok]

end HttpConfig

namespace HttpTransport

/-- **Bases that calls can use.** A base that is loaded from a text is one that every plain path can
be joined to, exactly if the text is hierarchical. Any other text loads all the same; then every
call to a plain path fails, and no call succeeds unless its URL is a fragment alone. -/
theorem joins_iff_isHierarchical [DomainNames] {lookup : String → Option String} {c : HttpConfig}
    {log : Log} (h : HttpConfig.ofLookup lookup = (.ok c, log)) :
    ∃ raw, lookup HttpConfig.baseUrlVariable = some raw ∧
      (∀ r : Request, Url.IsPlainPath r.url →
        ((∃ u, joinRelative c.baseUrl r = .ok u) ↔ Url.isHierarchical raw = true) ∧
        (Url.isHierarchical raw = false →
          joinRelative c.baseUrl r = .error (.invalidUrl .relativeToOpaqueBase))) ∧
      (Url.isHierarchical raw = false → ∀ r u, joinRelative c.baseUrl r = .ok u →
        (Url.significant r.url.toList).head? = some '#') := by
  obtain ⟨raw, hraw, hparse⟩ := HttpConfig.parse_of_ofLookup h
  have hloaded := Url.isOpaque_of_parse hparse
  refine ⟨raw, hraw, fun r hr => ?_, fun hn r u hu => ?_⟩
  · obtain ⟨hrelative, herror, hok⟩ := Url.join_of_isPlainPath c.baseUrl hr
    have hfail (hn : Url.isHierarchical raw = false) :
        joinRelative c.baseUrl r = .error (.invalidUrl .relativeToOpaqueBase) := by
      rw [joinRelative, if_neg (by rw [hrelative]; simpa [Except.isOk, Except.toBool] using hr.2.1),
        herror (by rw [hloaded, hn]; rfl)]
      rfl
    refine ⟨⟨?_, ?_⟩, hfail⟩
    · rintro ⟨u, hu⟩
      by_contra hn
      rw [hfail (by simpa using hn)] at hu
      cases hu
    · intro hy
      obtain ⟨u, hu⟩ := hok (by rw [hloaded, hy]; rfl)
      refine ⟨u, joinRelative_eq_ok_iff.2 ⟨hr.2.1, fun v hv => ?_, hu⟩⟩
      rw [hrelative] at hv
      cases hv
  · have ho : c.baseUrl.isOpaque = true := by rw [hloaded, hn]; rfl
    obtain ⟨-, hp, hj⟩ := joinRelative_eq_ok_iff.1 hu
    exact Url.head?_of_join_isOpaque ho (Url.kind_of_isOpaque hparse ho) hp hj

/-- The variables of an environment that sets the base URL alone. -/
def baseVariable (raw name : String) : Option String :=
  if name = HttpConfig.baseUrlVariable then some raw else none

/-- A base of the web is joined to. -/
theorem joins_web :
    let c := HttpConfig.ofUrl apiBase
    HttpConfig.ofLookup (baseVariable "https://api.example.com/v1/") =
        (.ok c, [HttpConfig.configured c]) ∧
      Url.IsPlainPath (getRequest "users/1").url ∧
      ∃ u, joinRelative c.baseUrl (getRequest "users/1") = .ok u := by
  intro c
  have h : HttpConfig.ofLookup (baseVariable "https://api.example.com/v1/") =
      (.ok c, [HttpConfig.configured c]) := HttpConfig.ofLookup_of_parse rfl rfl (by decide +kernel)
  have hplain : Url.IsPlainPath (getRequest "users/1").url := by decide
  obtain ⟨raw, hraw, hjoins, -⟩ := joins_iff_isHierarchical h
  obtain rfl : "https://api.example.com/v1/" = raw := Option.some.inj hraw
  exact ⟨h, hplain, (hjoins _ hplain).1.2 (by decide +kernel)⟩

/-- The host and the port of a server load as a base that no route can be joined to. -/
theorem loads_localhost :
    ∃ c log, HttpConfig.ofLookup (baseVariable "localhost:8080") = (.ok c, log) ∧
      Url.IsPlainPath (getRequest "users").url ∧
      joinRelative c.baseUrl (getRequest "users") = .error (.invalidUrl .relativeToOpaqueBase) :=
  ⟨_, _, HttpConfig.ofLookup_of_parse rfl rfl rfl, by decide, by rfl⟩

end HttpTransport
end RestDispatch
