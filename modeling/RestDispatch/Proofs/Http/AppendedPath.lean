import Mathlib.Data.List.TakeWhile
import RestDispatch.Proofs.Http.BasePath
import RestDispatch.Proofs.Http.LoadedBase

/-!
# Paths that are appended

A relative path of plain segments is put behind the path of a base as it is written: it begins
with no scheme and no slash, its segments are no dots, and nothing in it is percent-encoded.
`addAll_closed_append` follows the reader over the segments of such a path, and
`joinRelative_append` says what a transport makes of it.
-/

namespace RestDispatch
namespace Url

/-! ### Segments -/

/-- A character of a plain segment: a letter or a digit of ASCII, a point, an underscore, a tilde or
a hyphen. -/
def isSegmentChar (c : Char) : Bool := c.isAlphanum || ['.', '_', '~', '-'].contains c

/-- A segment that leads from a directory into one below it. -/
structure IsSegment (s : List Char) : Prop where
  ne_nil : s ≠ []
  chars : ∀ c ∈ s, isSegmentChar c = true
  ne_dot : s ≠ ['.']
  ne_dots : s ≠ ['.', '.']

/-- Whether a text is a path of segments, with or without a slash at its end. -/
def IsSegmentPath (text : String) : Prop :=
  ∃ ss : List (List Char), ss ≠ [] ∧ (∀ s ∈ ss, IsSegment s) ∧
    (text.toList = ['/'].intercalate ss ∨ text.toList = ['/'].intercalate ss ++ ['/'])

/-- A path is made of segments that are closed by slashes and one that is open, which may be empty
behind others. -/
theorem exists_closed_of_intercalate {ss : List (List Char)} (hne : ss ≠ []) {cs : List Char}
    (h : cs = ['/'].intercalate ss ∨ cs = ['/'].intercalate ss ++ ['/']) :
    ∃ ts last, cs = closed ts ++ last ∧ (∀ t ∈ ts, t ∈ ss) ∧ (last ∈ ss ∨ last = [] ∧ ts ≠ []) := by
  induction ss generalizing cs with
  | nil => exact absurd rfl hne
  | cons s ss ih =>
    cases ss with
    | nil =>
      rw [List.intercalate_singleton] at h
      rcases h with rfl | rfl
      · exact ⟨[], cs, rfl, by simp, .inl (by simp)⟩
      · exact ⟨[s], [], by simp [closed], by simp, .inr ⟨rfl, by simp⟩⟩
    | cons s' ss =>
      rw [List.intercalate_cons_cons] at h
      obtain ⟨cs', rfl, h'⟩ : ∃ cs', cs = s ++ '/' :: cs' ∧
          (cs' = ['/'].intercalate (s' :: ss) ∨ cs' = ['/'].intercalate (s' :: ss) ++ ['/']) := by
        rcases h with rfl | rfl
        · exact ⟨_, by simp, .inl rfl⟩
        · exact ⟨_, by simp, .inr rfl⟩
      obtain ⟨ts, last, rfl, hts, hlast⟩ := ih (by simp) h'
      refine ⟨s :: ts, last, by simp, fun t ht => ?_, ?_⟩
      · rcases List.mem_cons.1 ht with rfl | ht
        · exact List.mem_cons_self
        · exact List.mem_cons_of_mem _ (hts t ht)
      · exact hlast.imp (List.mem_cons_of_mem _) fun h => ⟨h.1, by simp⟩

/-- What holds of the plain characters of ASCII holds of every character of a segment. -/
theorem forall_isSegmentChar {P : Char → Prop}
    (h : ∀ n < 128, isSegmentChar (Char.ofNat n) = true → P (Char.ofNat n)) {c : Char}
    (hc : isSegmentChar c = true) : P c := by
  have hlt : c.toNat < 128 := by
    -- the letters and the digits are three ranges
    change (decide (c.val ≥ 'A'.val ∧ c.val ≤ 'Z'.val) ||
      (decide (c.val ≥ 'a'.val) && decide (c.val ≤ 'z'.val)) ||
      (decide (c.val ≥ '0'.val) && decide (c.val ≤ '9'.val)) ||
      ['.', '_', '~', '-'].contains c) = true at hc
    simp only [Bool.or_eq_true, Bool.and_eq_true, decide_eq_true_eq, List.contains_iff_mem,
      List.mem_cons, List.not_mem_nil, or_false] at hc
    rcases hc with ((⟨-, h⟩ | ⟨-, h⟩) | ⟨-, h⟩) | rfl | rfl | rfl | rfl
    · exact Nat.lt_of_le_of_lt h (by decide)
    · exact Nat.lt_of_le_of_lt h (by decide)
    · exact Nat.lt_of_le_of_lt h (by decide)
    all_goals decide
  have hof := h c.toNat hlt
  rw [Char.ofNat_toNat] at hof
  exact hof hc

theorem isSlash_of_isSegmentChar {c : Char} (h : isSegmentChar c = true) : isSlash .web c = false :=
  forall_isSegmentChar (P := fun c => isSlash .web c = false) (by decide) h

theorem kept_of_isSegmentChar {c : Char} (h : isSegmentChar c = true) :
    c.toNat < 128 ∧ Percent.allBut Percent.pathSet c = true :=
  forall_isSegmentChar (P := fun c => c.toNat < 128 ∧ Percent.allBut Percent.pathSet c = true)
    (by decide) h

namespace IsSegment

variable {s : List Char}

/-- A plain segment is written as it is. -/
theorem encode_eq (h : IsSegment s) : Percent.encode (Percent.allBut Percent.pathSet) s = s :=
  Percent.encode_eq_self fun c hc => kept_of_isSegmentChar (h.chars c hc)

theorem notMem_doubleDots (h : IsSegment s) : s ∉ doubleDots := by
  intro hm
  have hdots : ∀ d ∈ doubleDots, d = ['.', '.'] ∨ '%' ∈ d := by decide
  rcases hdots s hm with e | hp
  · exact h.ne_dots e
  · exact absurd (h.chars _ hp) (by decide)

theorem notMem_singleDots (h : IsSegment s) : s ∉ singleDots := by
  intro hm
  have hdots : ∀ d ∈ singleDots, d = ['.'] ∨ '%' ∈ d := by decide
  rcases hdots s hm with e | hp
  · exact h.ne_dot e
  · exact absurd (h.chars _ hp) (by decide)

end IsSegment

/-! ### Reading a path of segments -/

/-- A segment that is no dots is put at the end of a path. -/
theorem add_of_notMem {segment : List Char} (hd : segment ∉ doubleDots) (hs : segment ∉ singleDots)
    (path : List Char) (drive more : Bool) : PathState.add .web ⟨path, drive⟩ segment more =
      ⟨path ++ segment ++ if more then ['/'] else [], drive⟩ := by
  simp [PathState.add, hd, hs]

/-- Characters before a slash are gathered. -/
theorem addAll_append {cs : List Char} (h : ∀ c ∈ cs, isSlash .web c = false) (s : PathState)
    (segment rest : List Char) : PathState.addAll .web s segment (cs ++ rest) =
      PathState.addAll .web s (cs.reverse ++ segment) rest := by
  induction cs generalizing segment with
  | nil => rfl
  | cons c cs ih =>
    obtain ⟨hc, hcs⟩ := List.forall_mem_cons.1 h
    rw [List.cons_append, PathState.addAll, if_neg (by simp [hc]), ih hcs, List.reverse_cons,
      List.append_assoc, List.singleton_append]

/-- Reading an open segment behind a path puts it there. -/
theorem addAll_last {last : List Char} (h : IsSegment last ∨ last = []) (path : List Char)
    (drive : Bool) : PathState.addAll .web ⟨path, drive⟩ [] last = ⟨path ++ last, drive⟩ := by
  rcases h with h | rfl
  · rw [← List.append_nil last,
      addAll_append fun c hc => isSlash_of_isSegmentChar (h.chars c hc), PathState.addAll,
      List.append_nil, List.append_nil, List.reverse_reverse, h.encode_eq,
      add_of_notMem h.notMem_doubleDots h.notMem_singleDots]
    simp
  · rw [PathState.addAll, List.reverse_nil, Percent.encode_nil,
      add_of_notMem (by decide) (by decide)]
    simp

/-- Reading segments behind a path puts them there as they are; the induction is on the segments
that a slash closes. -/
theorem addAll_closed_append {ts : List (List Char)} (ht : ∀ t ∈ ts, IsSegment t) {last : List Char}
    (hl : IsSegment last ∨ last = []) (path : List Char) (drive : Bool) :
    PathState.addAll .web ⟨path, drive⟩ [] (closed ts ++ last) =
      ⟨path ++ (closed ts ++ last), drive⟩ := by
  induction ts generalizing path with
  | nil => exact addAll_last hl path drive
  | cons t ts ih =>
    obtain ⟨hs, hts⟩ := List.forall_mem_cons.1 ht
    have hclosed : closed (t :: ts) ++ last = t ++ '/' :: (closed ts ++ last) := by simp
    calc PathState.addAll .web ⟨path, drive⟩ [] (closed (t :: ts) ++ last)
        = PathState.addAll .web ⟨path, drive⟩ t.reverse ('/' :: (closed ts ++ last)) := by
          rw [hclosed, addAll_append fun c hc => isSlash_of_isSegmentChar (hs.chars c hc),
            List.append_nil]
      _ = PathState.addAll .web ⟨path ++ t ++ ['/'], drive⟩ [] (closed ts ++ last) := by
          rw [PathState.addAll, if_pos (by decide), List.reverse_reverse, hs.encode_eq,
            add_of_notMem hs.notMem_doubleDots hs.notMem_singleDots, if_pos rfl]
      _ = ⟨path ++ (closed (t :: ts) ++ last), drive⟩ := by
          rw [ih hts, hclosed]
          simp

/-! ### Paths of segments -/

namespace IsSegmentPath

variable {text : String}

theorem exists_closed (h : IsSegmentPath text) : ∃ ts last, text.toList = closed ts ++ last ∧
    (∀ t ∈ ts, IsSegment t) ∧ (IsSegment last ∨ last = [] ∧ ts ≠ []) := by
  obtain ⟨ss, hne, hss, htext⟩ := h
  obtain ⟨ts, last, hcs, hts, hlast⟩ := exists_closed_of_intercalate hne htext
  exact ⟨ts, last, hcs, fun t ht => hss t (hts t ht), hlast.imp_left (hss last)⟩

theorem isSegmentChar_of_mem (h : IsSegmentPath text) {c : Char} (hc : c ∈ text.toList) :
    isSegmentChar c = true ∨ c = '/' := by
  obtain ⟨ts, last, hcs, hts, hlast⟩ := h.exists_closed
  rw [hcs, closed, List.mem_append, List.mem_flatMap] at hc
  rcases hc with ⟨t, ht, hc⟩ | hc
  · exact (List.mem_append.1 hc).imp ((hts t ht).chars c) List.mem_singleton.1
  · rcases hlast with hl | ⟨rfl, -⟩
    · exact .inl (hl.chars c hc)
    · cases hc

/-- A path of segments begins with a character of a segment. -/
theorem exists_cons (h : IsSegmentPath text) :
    ∃ c cs, text.toList = c :: cs ∧ isSegmentChar c = true := by
  have hhead {s : List Char} (hs : IsSegment s) (rest : List Char) :
      ∃ c cs, s ++ rest = c :: cs ∧ isSegmentChar c = true := by
    obtain ⟨c, cs, rfl⟩ := List.exists_cons_of_ne_nil hs.ne_nil
    exact ⟨c, cs ++ rest, rfl, hs.chars c List.mem_cons_self⟩
  obtain ⟨ts, last, hcs, hts, hlast⟩ := h.exists_closed
  rw [hcs]
  cases ts with
  | nil =>
    have hl := hlast.resolve_right fun h => h.2 rfl
    simpa [closed] using hhead hl []
  | cons t ts => simpa using hhead (hts t List.mem_cons_self) ('/' :: (closed ts ++ last))

/-- What holds of a slash and of the characters of a segment holds of all of such a path. -/
theorem forall_mem (h : IsSegmentPath text) {P : Char → Prop} (hs : P '/')
    (hp : ∀ n < 128, isSegmentChar (Char.ofNat n) = true → P (Char.ofNat n)) :
    ∀ c ∈ text.toList, P c := by
  intro c hc
  rcases h.isSegmentChar_of_mem hc with hc | rfl
  · exact forall_isSegmentChar hp hc
  · exact hs

theorem significant (h : IsSegmentPath text) : significant text.toList = text.toList :=
  significant_of_forall_lt (h.forall_mem (by decide) (by decide))

theorem takeScheme?_significant (h : IsSegmentPath text) :
    takeScheme? (Url.significant text.toList) = none := by
  rw [h.significant]
  exact takeScheme?_eq_none fun hm =>
    h.forall_mem (P := fun c => c ≠ ':') (by decide) (by decide) _ hm rfl

/-- Neither a query nor a fragment follows a path of segments. -/
theorem splitTail_eq (h : IsSegmentPath text) : splitTail text.toList = (text.toList, []) := by
  have hends : ∀ c ∈ text.toList, (!endsPath c) = true := h.forall_mem (by decide) (by decide)
  rw [splitTail, List.span_eq_takeWhile_dropWhile, List.takeWhile_eq_self_iff.2 hends,
    List.dropWhile_eq_nil_iff.2 hends]

/-- A path of segments extends a path by its own text. -/
theorem extendPath_eq (h : IsSegmentPath text) (path : List Char) :
    (extendPath .web path text.toList).path = path ++ text.toList := by
  obtain ⟨ts, last, hcs, hts, hlast⟩ := h.exists_closed
  rw [extendPath, hcs, addAll_closed_append hts (hlast.imp_right And.left)]
  rfl

/-- A path of segments is read relative to a base whose path ends in a slash by putting it there. -/
theorem readRelative_eq [DomainNames] (h : IsSegmentPath text) {base : Url} (hb : base.kind = .web)
    (hl : base.path.toList.getLast? = some '/') (hq : base.query = none)
    (hf : base.fragment = none) :
    readRelative base text.toList = .ok { base with path := base.path ++ text } := by
  obtain ⟨c, cs, hcs, hc⟩ := h.exists_cons
  have hends : endsPath c = false :=
    forall_isSegmentChar (P := fun c => endsPath c = false) (by decide) hc
  calc readRelative base text.toList
      = .ok (extend base (basePath base) text.toList) := by
        rw [hcs]
        exact readRelative_plain base hends (isSlash_of_isSegmentChar hc) cs
    _ = .ok { base with path := base.path ++ text } := by
        rw [extend, h.splitTail_eq, basePath_eq hb hl, hb]
        simp only [h.extendPath_eq, String.ofList_append, String.ofList_toList]
        obtain ⟨scheme, authority, path, query, fragment⟩ := base
        cases hq
        cases hf
        rfl

/-- A path of segments does not stand by itself, and is joined to a base by putting it behind the
path of the base. -/
theorem parse_join [DomainNames] (h : IsSegmentPath text) {base : Url} (hb : base.kind = .web)
    (hh : base.path.toList.head? = some '/') (hl : base.path.toList.getLast? = some '/')
    (hq : base.query = none) (hf : base.fragment = none) :
    parse text = .error .relativeWithoutBase ∧
      base.join text = .ok { base with path := base.path ++ text } := by
  have hnone := h.takeScheme?_significant
  obtain ⟨c, cs, hcs, hc⟩ := h.exists_cons
  have hfragment : (Url.significant text.toList).head? ≠ some '#' := by
    rw [h.significant, hcs]
    rintro ⟨⟩
    exact absurd hc (by decide)
  have hpathed : base.isOpaque = false := by simp [isOpaque, hh]
  refine ⟨parse_of_takeScheme?_eq_none hnone, ?_⟩
  rw [join_of_takeScheme?_eq_none base hnone hfragment, if_neg (by simp [hpathed]),
    if_neg (by simp [hb]), h.significant, h.readRelative_eq hb hl hq hf]

end IsSegmentPath

/-- Two slashes at the head of a path are there before a text is put behind it, or not at all. -/
theorem isPrefixOf_append {path cs : List Char} (hp : path.head? = some '/')
    (hc : cs.head? ≠ some '/') :
    ['/', '/'].isPrefixOf (path ++ cs) = ['/', '/'].isPrefixOf path := by
  obtain ⟨rest, rfl⟩ := List.head?_eq_some_iff.1 hp
  rw [Bool.eq_iff_iff, List.isPrefixOf_iff_prefix, List.isPrefixOf_iff_prefix]
  cases rest with
  | cons d ds => simp [List.cons_prefix_cons]
  | nil =>
    cases cs with
    | nil => rfl
    | cons c cs => simpa [List.cons_prefix_cons, eq_comm] using hc

/-- The text of a URL grows with its path, if nothing follows that. -/
theorem text_append {base : Url} (hh : base.path.toList.head? = some '/') (hq : base.query = none)
    (hf : base.fragment = none) {text : String} (ht : text.toList.head? ≠ some '/') :
    ({ base with path := base.path ++ text } : Url).text = base.text ++ text := by
  obtain ⟨scheme, authority, path, query, fragment⟩ := base
  cases hq
  cases hf
  have hslashes :
      ['/', '/'].isPrefixOf (path ++ text).toList = ['/', '/'].isPrefixOf path.toList := by
    rw [String.toList_append]
    exact isPrefixOf_append hh ht
  have hhierarchy : (⟨scheme, authority, path ++ text, none, none⟩ : Url).hierarchy =
      (⟨scheme, authority, path, none, none⟩ : Url).hierarchy := by
    cases authority with
    | some a => rfl
    | none => simp only [hierarchy, hslashes]
  simp only [Url.text, hhierarchy, Option.map_none, Option.getD_none, String.append_empty,
    String.append_assoc]

end Url

namespace HttpTransport

/-- **Appended paths.** Under a base of the web whose path ends in a slash, as it begins with one,
and is followed by nothing, a request to a path of plain segments goes to the URL whose text is that
of the base and then the path, unchanged. -/
theorem joinRelative_append [DomainNames] {base : Url}
    (hb : base.scheme = "http" ∨ base.scheme = "https")
    (hh : base.path.toList.head? = some '/') (hl : base.path.toList.getLast? = some '/')
    (hq : base.query = none) (hf : base.fragment = none) {r : Request}
    (hr : Url.IsSegmentPath r.url) :
    joinRelative base r = .ok { base with path := base.path ++ r.url } ∧
      ({ base with path := base.path ++ r.url } : Url).text = base.text ++ r.url := by
  obtain ⟨hparse, hjoin⟩ := hr.parse_join (Url.kind_eq_web hb) hh hl hq hf
  obtain ⟨c, cs, hcs, hc⟩ := hr.exists_cons
  have hslash : r.url.toList.head? ≠ some '/' := by
    rw [hcs]
    rintro ⟨⟩
    exact absurd hc (by decide)
  refine ⟨joinRelative_eq_ok_iff.2 ⟨hslash, fun v hv => ?_, hjoin⟩, Url.text_append hh hq hf hslash⟩
  cases hparse.symm.trans hv

/-- Dots within a segment and a slash at the end are kept. -/
theorem joinRelative_append_dotted :
    Url.parse "https://api.example.com/v1/" = .ok apiBase ∧
      Url.IsSegmentPath "users/~a..b/...-_/" ∧
      ∃ u, joinRelative apiBase (getRequest "users/~a..b/...-_/") = .ok u ∧
        u.text = "https://api.example.com/v1/users/~a..b/...-_/" := by
  have hparse : Url.parse "https://api.example.com/v1/" = .ok apiBase := by with_unfolding_all rfl
  have hpath : Url.IsSegmentPath "users/~a..b/...-_/" := by
    refine ⟨["users", "~a..b", "...-_"].map String.toList, by decide, fun s hs => ?_,
      .inr (by decide)⟩
    simp only [List.map_cons, List.map_nil, List.mem_cons, List.not_mem_nil, or_false] at hs
    rcases hs with rfl | rfl | rfl <;>
      exact ⟨by decide, List.all_eq_true.1 rfl, by decide, by decide⟩
  have h := @joinRelative_append _ apiBase (.inr rfl) (Url.head?_path_of_parse hparse rfl)
    (by decide) rfl rfl (getRequest "users/~a..b/...-_/") hpath
  exact ⟨hparse, hpath, _, h.1, h.2⟩

end HttpTransport
end RestDispatch
