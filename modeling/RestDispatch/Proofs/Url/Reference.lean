import Mathlib.Data.List.TakeDrop
import RestDispatch.Http.Transport

/-!
# References relative to a base of the web

What joining a text to a base does to the parts of the base. `significant_eq_self` says which texts
count in full, and `readRelative_cases` is the inversion of the reader: a text that begins with two
slashes names an authority of its own, and any other keeps the authority of the base. `join_cases`
carries this over to the texts that cannot stand by themselves.
-/

namespace RestDispatch
namespace Url

/-! ### Slashes -/

theorem isSlash_web : isSlash .web = fun c => c == '/' || c == '\\' := by
  funext c
  rw [isSlash, show SchemeKind.web.isSpecial = true from rfl, Bool.and_true]

theorem isSlash_web_iff {c : Char} : isSlash .web c = true ↔ c = '/' ∨ c = '\\' := by
  simp [isSlash_web]

/-- Whether a text begins with two slashes, as schemes of the web count them. -/
def opensAuthority : List Char → Bool
  | c :: d :: _ => isSlash .web c && isSlash .web d
  | _ => false

theorem opensAuthority_iff {cs : List Char} : opensAuthority cs = true ↔
    ∃ c d ds, cs = c :: d :: ds ∧ isSlash .web c = true ∧ isSlash .web d = true := by
  rcases cs with _ | ⟨c, _ | ⟨d, ds⟩⟩ <;> simp [opensAuthority]

/-- Whether a text that is read relative to a base of the web names an authority. -/
def namesAuthority (text : String) : Bool := opensAuthority (significant text.toList)

/-- A text read by itself under a scheme. -/
def parseUnder [DomainNames] (scheme text : String) : Except UrlFault Url :=
  parse (scheme ++ ":" ++ String.ofList (significant text.toList))

/-- What counts of a text after the scheme that it may begin with. -/
def relativePart (text : String) : List Char :=
  match takeScheme? (significant text.toList) with
  | some (_, rest) => rest
  | none => significant text.toList

/-! ### What counts of a text -/

/-- Whether a character counts inside a text. -/
def isKept (c : Char) : Bool := c != '\t' && c != '\n' && c != '\r'

theorem isKept_of_lt {c : Char} (h : 0x20 < c.toNat) : isKept c = true := by
  simp only [isKept, bne, Bool.and_eq_true, Bool.not_eq_true', beq_eq_false_iff_ne]
  refine ⟨⟨?_, ?_⟩, ?_⟩ <;> rintro rfl <;> exact absurd h (by decide)

/-- What is left of a text once a class is taken off its end does not end in that class. -/
theorem getLast?_reverse_dropWhile {p : Char → Bool} (cs : List Char) :
    ∀ c ∈ (cs.reverse.dropWhile p).reverse.getLast?, p c = false := by
  intro c hc
  rw [List.getLast?_reverse] at hc
  have hne : cs.reverse.dropWhile p ≠ [] := by
    intro e; simp [e] at hc
  have hh := List.head?_dropWhile_not p cs.reverse
  rw [Option.mem_def.1 hc] at hh
  simpa using hh

/-- What counts of a text ends with a character above the space. -/
theorem lt_of_mem_getLast?_significant {cs : List Char} :
    ∀ c ∈ (significant cs).getLast?, 0x20 < c.toNat := by
  intro c hc
  obtain ⟨t, hs, hlast⟩ : ∃ t : List Char,
      significant cs = t.filter isKept ∧ ∀ d ∈ t.getLast?, 0x20 < d.toNat :=
    ⟨_, rfl, fun d hd => by simpa using getLast?_reverse_dropWhile _ d hd⟩
  rcases List.eq_nil_or_concat t with e | ⟨init, d, e⟩
  · simp [hs, e] at hc
  · have hd := hlast d (by simp [e])
    simp only [hs, e, List.concat_eq_append, List.filter_append, List.filter_cons,
      isKept_of_lt hd, if_true, List.filter_nil, List.getLast?_append, List.getLast?_singleton,
      Option.some_or, Option.mem_some_iff] at hc
    exact hc ▸ hd

/-- What counts of a text holds no tab and no line end. -/
theorem isKept_of_mem_significant {cs : List Char} :
    ∀ c ∈ significant cs, isKept c = true := fun _ hc => (List.mem_filter.1 hc).2

/-- A text counts in full if no control or space stands at its ends, and no tab or line end in it.
-/
theorem significant_eq_self {cs : List Char} (hh : ∀ c ∈ cs.head?, 0x20 < c.toNat)
    (hl : ∀ c ∈ cs.getLast?, 0x20 < c.toNat) (hk : ∀ c ∈ cs, isKept c = true) :
    significant cs = cs := by
  have hfront : cs.dropWhile (fun c => decide (c.toNat ≤ 0x20)) = cs :=
    Text.dropWhile_eq_self_iff.2 fun c hc => by simpa using hh c hc
  have hback : cs.reverse.dropWhile (fun c => decide (c.toNat ≤ 0x20)) = cs.reverse :=
    Text.dropWhile_eq_self_iff.2 fun c hc => by
      rw [List.head?_reverse] at hc
      simpa using hl c hc
  have hs : significant cs = ((cs.dropWhile (·.toNat ≤ 0x20)).reverse.dropWhile
    (·.toNat ≤ 0x20)).reverse.filter isKept := rfl
  rw [hs, hfront, hback, List.reverse_reverse, List.filter_eq_self.2 hk]

/-- A text with neither controls nor spaces counts in full. -/
theorem significant_of_forall_lt {cs : List Char} (h : ∀ c ∈ cs, 0x20 < c.toNat) :
    significant cs = cs :=
  significant_eq_self (fun c hc => h c (List.mem_of_mem_head? hc))
    (fun c hc => h c (List.mem_of_mem_getLast? hc)) fun c hc => isKept_of_lt (h c hc)

/-! ### Schemes of the web -/

theorem mem_of_ofScheme_eq_web {s : String} (h : SchemeKind.ofScheme s = .web) :
    s ∈ ["http", "https", "ws", "wss", "ftp"] := by
  unfold SchemeKind.ofScheme at h
  split at h
  · next hs => simpa using hs
  · split at h <;> cases h

/-- A scheme of the web and a colon are read as that scheme. -/
theorem takeScheme?_append {s : String} (h : SchemeKind.ofScheme s = .web) (cs : List Char) :
    takeScheme? (s.toList ++ ':' :: cs) = some (s, cs) := by
  have hm := mem_of_ofScheme_eq_web h
  simp only [List.mem_cons, List.not_mem_nil, or_false] at hm
  rcases hm with rfl | rfl | rfl | rfl | rfl <;> rfl

/-- Behind a scheme of the web, what counts of a text counts in full. -/
theorem significant_append {s : String} (h : SchemeKind.ofScheme s = .web) (cs : List Char) :
    significant (s.toList ++ ':' :: significant cs) = s.toList ++ ':' :: significant cs := by
  have hs : s.toList.head?.isSome ∧ (s.toList.all fun c => 0x20 < c.toNat) = true := by
    have hm := mem_of_ofScheme_eq_web h
    simp only [List.mem_cons, List.not_mem_nil, or_false] at hm
    rcases hm with rfl | rfl | rfl | rfl | rfl <;> decide
  simp only [List.all_eq_true, decide_eq_true_eq] at hs
  refine significant_eq_self (fun c hc => ?_) (fun c hc => ?_) fun c hc => ?_
  · rw [List.head?_append, Option.or_of_isSome hs.1] at hc
    exact hs.2 c (List.mem_of_mem_head? hc)
  · rw [List.getLast?_append, List.getLast?_cons, Option.some_or, Option.mem_some_iff] at hc
    cases hl : (significant cs).getLast? with
    | none => rw [← hc, hl]; decide
    | some d =>
      rw [hl, Option.getD_some] at hc
      exact lt_of_mem_getLast?_significant c (hc ▸ hl)
  · rcases List.mem_append.1 hc with hc | hc
    · exact isKept_of_lt (hs.2 c hc)
    · rcases List.mem_cons.1 hc with rfl | hc
      · decide
      · exact isKept_of_mem_significant c hc

/-- What follows the front of a class is what is left without that front. -/
theorem drop_length_takeWhile (p : Char → Bool) (cs : List Char) :
    cs.drop (cs.takeWhile p).length = cs.dropWhile p :=
  calc cs.drop (cs.takeWhile p).length
      = (cs.takeWhile p ++ cs.dropWhile p).drop (cs.takeWhile p).length := by
        rw [List.takeWhile_append_dropWhile]
    _ = cs.dropWhile p := List.drop_left

/-- A text under a scheme of the web begins with its authority, however many slashes precede it. -/
theorem parseUnder_eq [DomainNames] {s : String} (h : SchemeKind.ofScheme s = .web)
    (text : String) :
    parseUnder s text = readAuthority s ((significant text.toList).dropWhile (isSlash .web)) := by
  have hcs : (s ++ ":" ++ String.ofList (significant text.toList)).toList =
      s.toList ++ ':' :: significant text.toList := by simp
  rw [parseUnder, parse, read, hcs, significant_append h, takeScheme?_append h]
  simp only [readScheme, h, isSlash_web, drop_length_takeWhile]

/-! ### Authorities -/

/-- An authority of the web does not begin with a slash. -/
theorem readAuthority_slash [DomainNames] {s : String} (h : SchemeKind.ofScheme s = .web) {c : Char}
    (hc : isSlash .web c = true) (cs : List Char) :
    readAuthority s (c :: cs) = .error .emptyHost := by
  have he : endsAuthority .web c = true := by simp [endsAuthority, hc]
  have hspan : ((c :: cs).span fun d => !endsAuthority .web d) = ([], c :: cs) := by
    simp [List.span_eq_takeWhile_dropWhile, he]
  have hhost : readHostPort s [] (c :: cs) = .error .emptyHost := by
    simp only [readHostPort, h]
    rfl
  simp only [readAuthority, h, hspan]
  show (readHostPort s [] (c :: cs)).bind _ = _
  rw [hhost]
  rfl

/-! ### The parts of a reference -/

@[simp] theorem withTail_scheme (u : Url) (cs : List Char) : (withTail u cs).scheme = u.scheme :=
  rfl

@[simp] theorem withTail_authority (u : Url) (cs : List Char) :
    (withTail u cs).authority = u.authority := rfl

@[simp] theorem withTail_path (u : Url) (cs : List Char) : (withTail u cs).path = u.path := rfl

@[simp] theorem extend_scheme (u : Url) (path cs : List Char) :
    (extend u path cs).scheme = u.scheme := rfl

@[simp] theorem extend_authority (u : Url) (path cs : List Char) :
    (extend u path cs).authority = u.authority := rfl

@[simp] theorem extend_path (u : Url) (path cs : List Char) :
    (extend u path cs).path = String.ofList (extendPath u.kind path (splitTail cs).1).path := rfl

/-- The part of a text before its query and fragment. -/
theorem splitTail_fst (cs : List Char) : (splitTail cs).1 = cs.takeWhile fun c => !endsPath c := by
  rw [splitTail, List.span_eq_takeWhile_dropWhile]

/-- The path that relative texts without a slash at their head extend. -/
def basePath (base : Url) : List Char :=
  let path := popSegment base.kind base.path.toList
  if path = [] then ['/'] else path

/-- The path that a text without an authority gives under a base of the web. -/
def pathUnder (base : Url) (cs : List Char) : List Char :=
  match (splitTail cs).1 with
  | [] => base.path.toList
  | c :: rest =>
    if isSlash .web c then (extendPath base.kind ['/'] rest).path
    else (extendPath base.kind (basePath base) (c :: rest)).path

theorem pathUnder_cons (base : Url) {c : Char} (hc : endsPath c = false) (cs : List Char) :
    pathUnder base (c :: cs) =
      if isSlash .web c then (extendPath base.kind ['/'] (splitTail cs).1).path
      else (extendPath base.kind (basePath base) (c :: (splitTail cs).1)).path := by
  simp [pathUnder, splitTail_fst, hc]

/-! ### Reading references -/

/-- A query or a fragment alone leaves the rest of the base as it is. -/
theorem readRelative_tail [DomainNames] (base : Url) {c : Char} (hc : endsPath c = true)
    (cs : List Char) :
    ∃ query fragment, readRelative base (c :: cs) = .ok { base with query, fragment } := by
  simp only [endsPath, Bool.or_eq_true, beq_iff_eq] at hc
  rcases hc with rfl | rfl
  · exact ⟨_, _, rfl⟩
  · exact ⟨_, _, rfl⟩

/-- A text behind one slash is put at the root of the base. -/
theorem readRelative_rooted [DomainNames] (base : Url) {c : Char} (hc : isSlash .web c = true)
    {cs : List Char} (ho : opensAuthority (c :: cs) = false) :
    readRelative base (c :: cs) = .ok (extend base ['/'] cs) := by
  have hs := isSlash_web_iff.1 hc
  have hq : c ≠ '?' ∧ c ≠ '#' := by rcases hs with rfl | rfl <;> decide
  simp only [readRelative, if_neg hq.1, if_neg hq.2, if_pos hs]
  rcases cs with _ | ⟨d, ds⟩
  · rfl
  · have hd : ¬(d = '/' ∨ d = '\\') := by
      rw [← isSlash_web_iff]
      simpa [opensAuthority, hc] using ho
    simp only [if_neg hd]

/-- A text without a slash at its head is put behind the path of the base. -/
theorem readRelative_plain [DomainNames] (base : Url) {c : Char} (he : endsPath c = false)
    (hc : isSlash .web c = false) (cs : List Char) :
    readRelative base (c :: cs) = .ok (extend base (basePath base) (c :: cs)) := by
  have hq : c ≠ '?' ∧ c ≠ '#' := by simpa [endsPath] using he
  have hs : ¬(c = '/' ∨ c = '\\') := by rw [← isSlash_web_iff, hc]; exact Bool.false_ne_true
  simp only [readRelative, if_neg hq.1, if_neg hq.2, if_neg hs]
  rfl

/-- A text behind two slashes is read by itself; the reader skips further slashes only if one of
the two is a backslash, but no authority begins with a slash. -/
theorem readRelative_authority [DomainNames] {base u : Url} (hb : base.kind = .web) {cs : List Char}
    (ho : opensAuthority cs = true) (h : readRelative base cs = .ok u) :
    readAuthority base.scheme (cs.dropWhile (isSlash .web)) = .ok u := by
  obtain ⟨c, d, ds, rfl, hc, hd⟩ := opensAuthority_iff.1 ho
  have hs := isSlash_web_iff.1 hc
  have hq : c ≠ '?' ∧ c ≠ '#' := by rcases hs with rfl | rfl <;> decide
  rw [readRelative, if_neg hq.1, if_neg hq.2, if_pos hs] at h
  simp only [if_pos (isSlash_web_iff.1 hd), ← isSlash_web] at h
  rw [List.dropWhile_cons_of_pos hc]
  split at h
  · -- two plain slashes: the reader stops after them, also before a third
    rw [List.dropWhile_cons_of_pos hd]
    rcases ds with _ | ⟨e, ds⟩
    · exact h
    · cases he : isSlash .web e with
      | false => rwa [List.dropWhile_cons_of_neg (by simp [he])]
      | true => rw [readAuthority_slash hb he] at h; cases h
  · exact h

/-- A text that begins with two slashes is read by itself, and any other gives a path. -/
theorem readRelative_cases [DomainNames] {base u : Url} (hb : base.kind = .web) {cs : List Char}
    (h : readRelative base cs = .ok u) :
    (opensAuthority cs = true ∧
        readAuthority base.scheme (cs.dropWhile (isSlash .web)) = .ok u) ∨
      (opensAuthority cs = false ∧ u.scheme = base.scheme ∧ u.authority = base.authority ∧
        u.path.toList = pathUnder base cs) := by
  cases ho : opensAuthority cs with
  | true => exact .inl ⟨rfl, readRelative_authority hb ho h⟩
  | false =>
    refine .inr ⟨rfl, ?_⟩
    rcases cs with _ | ⟨c, cs⟩
    · cases h
      exact ⟨rfl, rfl, rfl⟩
    cases he : endsPath c with
    | true =>
      obtain ⟨query, fragment, hr⟩ := readRelative_tail base he cs
      cases hr.symm.trans h
      exact ⟨rfl, rfl, by simp [pathUnder, splitTail_fst, he]⟩
    | false =>
      cases hc : isSlash .web c with
      | true =>
        cases (readRelative_rooted base hc ho).symm.trans h
        exact ⟨rfl, rfl, by rw [pathUnder_cons base he, if_pos hc]; simp⟩
      | false =>
        cases (readRelative_plain base he hc cs).symm.trans h
        exact ⟨rfl, rfl, by rw [pathUnder_cons base he, hc]; simp [splitTail_fst, he]⟩

/-! ### Joining -/

/-- No scheme precedes two slashes at the head of a text. -/
theorem takeScheme?_of_opensAuthority {cs : List Char} (h : opensAuthority cs = true) :
    takeScheme? cs = none := by
  obtain ⟨c, d, ds, rfl, hc, -⟩ := opensAuthority_iff.1 h
  rcases isSlash_web_iff.1 hc with rfl | rfl <;> rfl

/-- Fewer than two slashes at its head name no authority. -/
theorem opensAuthority_of_length_lt {cs : List Char}
    (h : (cs.takeWhile (isSlash .web)).length < 2) : opensAuthority cs = false := by
  rw [Bool.eq_false_iff]
  intro ho
  obtain ⟨c, d, ds, rfl, hc, hd⟩ := opensAuthority_iff.1 ho
  rw [List.takeWhile_cons_of_pos hc, List.takeWhile_cons_of_pos hd] at h
  simp only [List.length_cons] at h
  omega

/-- A base of the web changes what a text with a scheme stands for only where the scheme is that of
the base and no authority follows it. -/
theorem readScheme_cases [DomainNames] {base u : Url} (hb : base.kind = .web) {scheme : String}
    {cs : List Char} (h : readScheme (some base) scheme cs = .ok u) :
    readScheme none scheme cs = .ok u ∨
      opensAuthority cs = false ∧ readRelative base cs = .ok u := by
  have hfile : (some base).filter (·.scheme == "file") = none := by
    have hne : base.scheme ≠ "file" := by
      intro e
      rw [Url.kind, e] at hb
      cases hb
    simp [Option.filter, hne]
  unfold readScheme at h ⊢
  split at h
  · next hk =>
    rw [hfile] at h
    exact .inl (by simpa only [hk, Option.filter_none] using h)
  · next hk =>
    simp only [← isSlash_web] at h
    split at h
    · next hlt => exact .inr ⟨opensAuthority_of_length_lt hlt.1, h⟩
    · exact .inl (by simpa only [hk, ← isSlash_web] using h)
  · next hk => exact .inl (by simpa only [hk] using h)

/-- What a text that cannot stand by itself is relative to a base of the web: one that names an
authority is read under the scheme of the base, and any other keeps its authority. -/
theorem join_cases [DomainNames] {base u : Url} (hb : base.kind = .web) {text : String}
    (hp : ∀ v, parse text ≠ .ok v) (h : base.join text = .ok u) :
    (namesAuthority text = true ∧ parseUnder base.scheme text = .ok u) ∨
      (namesAuthority text = false ∧ u.scheme = base.scheme ∧ u.authority = base.authority ∧
        u.path.toList = pathUnder base (relativePart text)) := by
  unfold join read at h
  unfold parse read at hp
  simp only [namesAuthority, relativePart]
  cases ht : takeScheme? (significant text.toList) with
  | some p =>
    -- the scheme has to be that of the base, or the text would stand by itself
    obtain ⟨scheme, rest⟩ := p
    simp only [ht] at h hp ⊢
    have hn : opensAuthority (significant text.toList) = false := by
      rw [Bool.eq_false_iff]
      intro ho
      rw [takeScheme?_of_opensAuthority ho] at ht
      cases ht
    obtain ⟨ho, hr⟩ := (readScheme_cases hb h).resolve_left (hp u)
    rcases readRelative_cases hb hr with ⟨ho', -⟩ | ⟨-, hu⟩
    · rw [ho] at ho'; cases ho'
    · exact .inr ⟨hn, hu⟩
  | none =>
    simp only [ht] at h ⊢
    have hr : readRelative base (significant text.toList) = .ok u := by
      split at h
      · next hs => rw [hs]; exact h
      · split at h
        · cases h
        · rwa [if_neg (by rw [hb]; decide)] at h
    rcases readRelative_cases hb hr with ⟨ho, ha⟩ | ⟨ho, hu⟩
    · exact .inl ⟨ho, by rw [parseUnder_eq hb, ha]⟩
    · exact .inr ⟨ho, hu⟩

end Url
end RestDispatch
