import RestDispatch.Proofs.Http.Origin
import RestDispatch.Proofs.Url.Directory
import RestDispatch.Proofs.Url.Parsed

/-!
# Calls and the path of the base

A transport refuses URLs that begin with a slash, so that calls stay under the path of its base, but
it does not look at the segments of a URL or at what counts of it. `path_prefix_iff` says which
texts stay under the base: those whose segments, walked over from the directory of the base, or from
the root after a slash, end in a directory that lies in it.
-/

namespace RestDispatch
namespace Url

/-! ### Where a text leads -/

/-- The directory that a text without an authority leads to under a base of the web. -/
def directoryUnder (base : Url) (cs : List Char) : List (List Char) :=
  match (splitTail cs).1 with
  | [] => stackOf base.path.toList
  | c :: rest =>
    if isSlash .web c then (walk [] (segments rest)).1
    else (walk (stackOf base.path.toList) (segments (c :: rest))).1

/-- Whether the path of a text lies under that of a base. A text that names an authority has a path
of its own; any other leads from the directory of the base, or from the root, to a directory that
has to lie in that of the base. -/
def StaysUnder [DomainNames] (base : Url) (text : String) : Prop :=
  if namesAuthority text then
    ∃ v, parseUnder base.scheme text = .ok v ∧ base.path.toList <+: v.path.toList
  else stackOf base.path.toList <:+ directoryUnder base (relativePart text)

/-- A base whose path ends in a slash is extended as it is. -/
theorem basePath_eq {base : Url} (hb : base.kind = .web)
    (hl : base.path.toList.getLast? = some '/') : basePath base = base.path.toList := by
  have hpop : popSegment .web base.path.toList = base.path.toList := by
    rw [popSegment, if_neg (by simp), upToSlash, List.reverse_eq_iff, Text.dropWhile_eq_self_iff,
      List.head?_reverse, hl]
    simp
  have hne : base.path.toList ≠ [] := by
    intro e
    rw [e] at hl
    cases hl
  rw [basePath, hb, hpop, if_neg hne]

/-- The path that a text without an authority gives lies in the directory that the text leads to.
-/
theorem pathUnder_eq {base : Url} (hb : base.kind = .web)
    (hh : base.path.toList.head? = some '/') (hl : base.path.toList.getLast? = some '/')
    (cs : List Char) :
    Plain (directoryUnder base cs) ∧
      ∃ last, '/' ∉ last ∧ pathUnder base cs = directory (directoryUnder base cs) ++ last := by
  obtain ⟨hdir, hplain⟩ := directory_stackOf hh hl
  have hroot : Plain [] := by simp [Plain]
  unfold directoryUnder pathUnder
  cases (splitTail cs).1 with
  | nil => exact ⟨hplain, [], by simp, by simp only [hdir, List.append_nil]⟩
  | cons c rest =>
    simp only [hb, basePath_eq hb hl]
    split
    · have hw := hroot.walk (plain_segments rest)
      exact ⟨hw.1, _, hw.2, extendPath_eq_walkPath hroot rest⟩
    · have hw := hplain.walk (plain_segments (c :: rest))
      refine ⟨hw.1, _, hw.2, ?_⟩
      calc (extendPath .web base.path.toList (c :: rest)).path
          = (extendPath .web (directory (stackOf base.path.toList)) (c :: rest)).path := by
            rw [hdir]
        _ = walkPath (stackOf base.path.toList) (segments (c :: rest)) :=
            extendPath_eq_walkPath hplain _

/-- Without double dots, segments lead to a directory in that from which they start. -/
theorem suffix_walk {stack ss : List (List Char)} (h : ∀ s ∈ ss, s ∉ doubleDots) :
    stack <:+ (walk stack ss).1 := by
  have henter {stack : List (List Char)} {s : List Char} (hs : s ∉ doubleDots) :
      stack <:+ enter stack s := by
    rw [enter, if_neg (mt List.contains_iff_mem.1 hs)]
    split
    · exact List.suffix_refl _
    · exact List.suffix_cons _ _
  induction ss generalizing stack with
  | nil => exact List.suffix_refl _
  | cons s ss ih =>
    have hs := List.forall_mem_cons.1 h
    cases ss with
    | nil =>
      rw [walk, if_neg (mt List.contains_iff_mem.1 hs.1)]
      split <;> exact List.suffix_refl _
    | cons t ts => exact (henter hs.1).trans (ih hs.2)

/-- A text that has no slash at its head and no double dots among its segments stays under any
base. -/
theorem staysUnder_of_notMem_doubleDots [DomainNames] {base : Url} {text : String}
    (hn : namesAuthority text = false)
    (hs : ∀ c ∈ (splitTail (relativePart text)).1.head?, isSlash .web c = false)
    (hd : ∀ s ∈ segments (splitTail (relativePart text)).1, s ∉ doubleDots) :
    StaysUnder base text := by
  rw [StaysUnder, if_neg (by simp [hn]), directoryUnder]
  cases hcs : (splitTail (relativePart text)).1 with
  | nil => exact List.suffix_refl _
  | cons c rest =>
    rw [hcs] at hs hd
    have hc : isSlash .web c = false := hs c rfl
    simp only [hc]
    exact suffix_walk hd

end Url

namespace HttpTransport

/-- **The path of a call.** Under a base of the web whose path ends in a slash, as it begins with one,
a request whose URL is joined has a path under that of the base exactly when its text stays under
the base; any other request is refused because its URL is not relative or is no URL. -/
theorem path_prefix_iff [DomainNames] {base : Url}
    (hb : base.scheme = "http" ∨ base.scheme = "https")
    (hh : base.path.toList.head? = some '/') (hl : base.path.toList.getLast? = some '/')
    (r : Request) :
    (∀ u, joinRelative base r = .ok u →
        (base.path.toList <+: u.path.toList ↔ Url.StaysUnder base r.url)) ∧
      ∀ e, joinRelative base r = .error e →
        e = .notRelative r.route r.url ∨ ∃ f, e = .invalidUrl f := by
  have hweb := Url.kind_eq_web hb
  constructor
  · intro u h
    unfold Url.StaysUnder
    rcases joinRelative_cases hweb h with ⟨hn, hu⟩ | ⟨hn, -, -, hp⟩
    · rw [if_pos hn]
      constructor
      · exact fun hpre => ⟨u, hu, hpre⟩
      · rintro ⟨v, hv, hpre⟩
        cases hu.symm.trans hv
        exact hpre
    · obtain ⟨hplain, last, hlast, hpath⟩ :=
        Url.pathUnder_eq hweb hh hl (Url.relativePart r.url)
      obtain ⟨hdir, hbase⟩ := Url.directory_stackOf hh hl
      rw [if_neg (by simp [hn]), hp, hpath, ← Url.directory_prefix_iff hplain hbase hlast, hdir]
  · intro e h
    unfold joinRelative at h
    split at h
    · cases h
      exact .inl rfl
    · obtain ⟨f, -, hf⟩ := mapError_eq_error_iff.1 h
      exact .inr ⟨f, hf.symm⟩

/-- Dots that climb no higher than they have come down stay under the base. -/
theorem path_prefix_climbing :
    joinRelative apiBase (getRequest "a/../users/1") = .ok { apiBase with path := "/v1/users/1" } ∧
      "/v1/".toList <+: "/v1/users/1".toList ∧ Url.StaysUnder apiBase "a/../users/1" :=
  have hj : joinRelative apiBase (getRequest "a/../users/1") =
      .ok { apiBase with path := "/v1/users/1" } := by rfl
  have hpre : "/v1/".toList <+: "/v1/users/1".toList := by decide
  have hparse : Url.parse "https://api.example.com/v1/" = .ok apiBase := by with_unfolding_all rfl
  have hhead := Url.head?_path_of_parse hparse rfl
  ⟨hj, hpre, ((path_prefix_iff (.inr rfl) hhead (by decide) (getRequest "a/../users/1")).1
    _ hj).1 hpre⟩

/-- Double dots at the head of a text lead out of the base, and so does a backslash. -/
theorem joinRelative_leaves_path :
    joinRelative apiBase (getRequest "../admin") = .ok { apiBase with path := "/admin" } ∧
      joinRelative apiBase (getRequest "\\admin") = .ok { apiBase with path := "/admin" } ∧
      ¬ "/v1/".toList <+: "/admin".toList :=
  ⟨by rfl, by rfl, by decide⟩

end HttpTransport
end RestDispatch
