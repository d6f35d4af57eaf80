import RestDispatch.Proofs.Url.Percent
import RestDispatch.Proofs.Url.Reference

/-!
# URLs that stand by themselves

What is known of a URL that was read without a base. `readAuthority_eq_ok` and
`exists_extend_of_parse` invert the reader, and `head?_path_of_parse` says that a URL of the web
always has a path that begins with a slash. `isOpaque_of_parse` tells from a text whether anything
is relative to its URL.
-/

namespace RestDispatch
namespace Url

/-! ### Paths that begin with a slash -/

/-- Up to its last slash, a path begins with the slash that it begins with. -/
theorem head?_upToSlash {path : List Char} (h : path.head? = some '/') :
    (upToSlash path).head? = some '/' := by
  obtain ⟨cs, rfl⟩ := List.head?_eq_some_iff.1 h
  have hslash : (cs.reverse ++ ['/']).dropWhile (· ≠ '/') =
      cs.reverse.dropWhile (· ≠ '/') ++ ['/'] := by
    rw [List.dropWhile_append]
    split
    · next he => rw [List.isEmpty_iff.1 he]; rfl
    · rfl
  rw [upToSlash, List.reverse_cons, hslash, List.reverse_append]
  rfl

theorem head?_popSegment {kind : SchemeKind} {path : List Char} (h : path.head? = some '/') :
    (popSegment kind path).head? = some '/' := by
  unfold popSegment
  split
  · exact h
  · exact head?_upToSlash h

theorem head?_parent {kind : SchemeKind} {path : List Char} (h : path.head? = some '/') :
    (parent kind path).head? = some '/' := by
  refine head?_popSegment ?_
  split
  · next hd =>
    -- a slash that may be dropped is not the first
    obtain ⟨cs, rfl⟩ := List.head?_eq_some_iff.1 h
    cases cs with
    | nil => exact absurd hd.2 (by decide)
    | cons c cs => rfl
  · exact h

theorem PathState.head?_add {kind : SchemeKind} {s : PathState} (h : s.path.head? = some '/')
    (segment : List Char) (more : Bool) : (s.add kind segment more).path.head? = some '/' := by
  have happend (cs : List Char) : (s.path ++ cs).head? = some '/' := by
    rw [List.head?_append, h]; rfl
  have hparent : (parent kind s.path).head? = some '/' := head?_parent h
  unfold PathState.add
  dsimp only
  split
  · split
    · exact hparent
    · rw [List.head?_append, hparent]; rfl
  split
  · split
    · exact h
    · exact happend _
  split
  · rw [List.append_assoc]; exact happend _
  · rw [List.append_assoc]; exact happend _

theorem PathState.head?_addAll {kind : SchemeKind} {s : PathState} (h : s.path.head? = some '/')
    (segment text : List Char) : (s.addAll kind segment text).path.head? = some '/' := by
  induction text generalizing s segment with
  | nil => exact head?_add h _ _
  | cons c cs ih =>
    unfold PathState.addAll
    split
    · exact ih (head?_add h _ _) _
    · exact ih h _

/-- A path that begins with a slash does so however it is extended. -/
theorem head?_extendPath {kind : SchemeKind} {path : List Char} (h : path.head? = some '/')
    (text : List Char) : (extendPath kind path text).path.head? = some '/' := by
  unfold extendPath PathState.close
  split
  · rfl
  · exact PathState.head?_addAll (s := ⟨path, false⟩) h [] text

/-- A URL that is extended at its root has a path that begins with a slash. -/
theorem head?_extend_root (u : Url) (cs : List Char) :
    (extend u ['/'] cs).path.toList.head? = some '/' := by
  rw [extend_path, String.toList_ofList]
  exact head?_extendPath rfl _

/-! ### Inversion of the reader -/

/-- What is read after the authority of a URL keeps its scheme and its authority. -/
theorem afterAuthority_origin (u : Url) (cs : List Char) :
    (afterAuthority u cs).scheme = u.scheme ∧ (afterAuthority u cs).authority = u.authority := by
  unfold afterAuthority
  split
  · exact ⟨rfl, rfl⟩
  · split
    · exact ⟨rfl, rfl⟩
    · split <;> exact ⟨rfl, rfl⟩
  · exact ⟨rfl, rfl⟩
  · exact ⟨rfl, rfl⟩

/-- What is read after the authority of a URL of the web is put at its root. -/
theorem afterAuthority_of_web {u : Url} (h : u.kind = .web) (cs : List Char) :
    ∃ rest, afterAuthority u cs = extend u ['/'] rest := by
  unfold afterAuthority
  rw [h]
  cases cs with
  | nil => exact ⟨_, rfl⟩
  | cons c cs => exact ⟨_, rfl⟩

/-- What an authority is read to keeps its scheme, and ends in what follows the authority. -/
theorem readAuthority_eq_ok [DomainNames] {scheme : String} {cs : List Char} {u : Url}
    (h : readAuthority scheme cs = .ok u) :
    ∃ authority rest, u = afterAuthority ⟨scheme, some authority, "", none, none⟩ rest := by
  simp only [readAuthority, bind, Except.bind] at h
  split at h
  · cases h
  · split at h
    · cases h
    · split at h
      · cases h
      · cases h
        exact ⟨_, _, rfl⟩

/-- A file stays one however its path is extended. -/
theorem extendFile_isFile {u : Url} (hs : u.scheme = "file") (ha : u.authority.isSome = true)
    (path cs : List Char) : (extendFile u path cs).scheme = "file" ∧
      (extendFile u path cs).authority.isSome = true := by
  refine ⟨hs, ?_⟩
  show (if _ then some Authority.nowhere else u.authority).isSome = true
  split
  · rfl
  · exact ha

theorem readFileRooted_isFile (cs : List Char) :
    (readFileRooted none cs).scheme = "file" ∧
      (readFileRooted none cs).authority.isSome = true := by
  unfold readFileRooted
  split <;> exact extendFile_isFile (u := fileRoot) rfl rfl [] cs

theorem readFileHost_eq_ok [DomainNames] {cs : List Char} {u : Url} (h : readFileHost cs = .ok u) :
    u.scheme = "file" ∧ u.authority.isSome = true := by
  simp only [readFileHost, bind, Except.bind] at h
  split at h
  · cases h
    exact extendFile_isFile (u := fileRoot) rfl rfl _ _
  split at h
  · cases h
    exact extendFile_isFile rfl rfl _ _
  split at h
  · cases h
  · cases h
    exact extendFile_isFile rfl rfl _ _

/-- A file that is read by itself has an authority, if only that of no host. -/
theorem readFile_eq_ok [DomainNames] {cs : List Char} {u : Url} (h : readFile none cs = .ok u) :
    u.scheme = "file" ∧ u.authority.isSome = true := by
  have hroot := extendFile_isFile (u := fileRoot) rfl rfl
  unfold readFile at h
  split at h
  · split at h
    · split at h
      · exact readFileHost_eq_ok h
      · cases h
        exact readFileRooted_isFile _
    · cases h
      exact hroot _ _
  · split at h
    · cases h
      exact readFileRooted_isFile _
    · cases h
      exact hroot _ _
  · cases h
    exact hroot _ _

/-- What follows a scheme is read to a URL of that scheme. -/
theorem readScheme_scheme [DomainNames] {scheme : String} {cs : List Char} {u : Url}
    (h : readScheme none scheme cs = .ok u) : u.scheme = scheme := by
  have hauthority {cs : List Char} (h : readAuthority scheme cs = .ok u) : u.scheme = scheme := by
    obtain ⟨a, rest, rfl⟩ := readAuthority_eq_ok h
    exact (afterAuthority_origin _ _).1
  unfold readScheme at h
  split at h
  · next hk =>
    have hfile : scheme = "file" := by
      unfold SchemeKind.ofScheme at hk
      split at hk
      · cases hk
      · split at hk
        · assumption
        · cases hk
    rw [hfile]
    exact (readFile_eq_ok h).1
  · exact hauthority h
  · dsimp only at h
    split at h
    · exact hauthority h
    · cases h; rfl
    · cases h; rfl

/-- A text that stands by itself is a scheme and what follows it. -/
theorem exists_readScheme_of_parse [DomainNames] {text : String} {u : Url}
    (h : parse text = .ok u) :
    ∃ scheme cs, takeScheme? (significant text.toList) = some (scheme, cs) ∧
      readScheme none scheme cs = .ok u := by
  unfold parse read at h
  cases ht : takeScheme? (significant text.toList) with
  | none => simp only [ht] at h; cases h
  | some p => exact ⟨p.1, p.2, rfl, by simpa only [ht] using h⟩

/-- A URL of the web that is read by itself is an authority and what follows it. -/
theorem exists_extend_of_parse [DomainNames] {text : String} {u : Url} (h : parse text = .ok u)
    (hu : u.kind = .web) : ∃ base rest, base.kind = .web ∧ u = extend base ['/'] rest := by
  obtain ⟨scheme, cs, -, hr⟩ := exists_readScheme_of_parse h
  have hk : SchemeKind.ofScheme scheme = .web := readScheme_scheme hr ▸ hu
  simp only [readScheme, hk] at hr
  obtain ⟨a, rest, rfl⟩ := readAuthority_eq_ok hr
  obtain ⟨rest', e⟩ := afterAuthority_of_web (u := ⟨scheme, some a, "", none, none⟩) hk rest
  exact ⟨⟨scheme, some a, "", none, none⟩, rest', hk, e⟩

/-- The path of a URL of the web begins with a slash. -/
theorem head?_path_of_parse [DomainNames] {text : String} {u : Url} (h : parse text = .ok u)
    (hu : u.kind = .web) : u.path.toList.head? = some '/' := by
  obtain ⟨base, rest, -, rfl⟩ := exists_extend_of_parse h hu
  exact head?_extend_root base rest

/-! ### Opaque URLs -/

/-- Whether other texts can be relative to the URL that a text is: its scheme is one of the web or
that of files, or a slash follows its scheme. -/
def isHierarchical (text : String) : Bool :=
  match takeScheme? (significant text.toList) with
  | some (scheme, rest) => (SchemeKind.ofScheme scheme).isSpecial || rest.head? == some '/'
  | none => false

theorem head?_component_ne {set cs : List Char} (h : cs.head? ≠ some '/') :
    (component set cs).toList.head? ≠ some '/' := by
  rw [component, String.toList_ofList]
  cases cs with
  | nil => exact h
  | cons c cs =>
    rcases Percent.head?_encode_cons (Percent.allBut set) c cs with e | e
    · rw [e]
      exact h
    · rw [e]
      decide

theorem isOpaque_of_readAuthority [DomainNames] {scheme : String} {cs : List Char} {u : Url}
    (h : readAuthority scheme cs = .ok u) : u.isOpaque = false := by
  obtain ⟨a, rest, rfl⟩ := readAuthority_eq_ok h
  rw [isOpaque, (afterAuthority_origin _ _).2]
  rfl

theorem isOpaque_extend_root (u : Url) (cs : List Char) : (extend u ['/'] cs).isOpaque = false := by
  rw [isOpaque, head?_extend_root, bne_self_eq_false, Bool.and_false]

/-- The URL of a text is opaque exactly if nothing can be relative to it. -/
theorem isOpaque_of_parse [DomainNames] {text : String} {u : Url} (h : parse text = .ok u) :
    u.isOpaque = !isHierarchical text := by
  obtain ⟨scheme, cs, ht, hr⟩ := exists_readScheme_of_parse h
  -- the reader tells the same kinds of schemes apart, and for the third looks at the same slash
  unfold readScheme at hr
  simp only [isHierarchical, ht]
  split at hr
  · next hk =>
    rw [isOpaque, Option.isNone_eq_false_iff.2 (readFile_eq_ok hr).2, hk]
    rfl
  · next hk =>
    rw [isOpaque_of_readAuthority hr, hk]
    rfl
  · next hk =>
    rw [hk]
    dsimp only at hr
    split at hr
    · exact isOpaque_of_readAuthority hr
    · cases hr
      rw [isOpaque_extend_root]
      rfl
    · next hn =>
      cases hr
      have hhead : cs.head? ≠ some '/' := fun e => by
        obtain ⟨rest, rfl⟩ := List.head?_eq_some_iff.1 e
        exact hn rest rfl
      have hpath : (splitTail cs).1.head? ≠ some '/' := by
        rw [splitTail_fst, List.head?_takeWhile]
        exact fun e => hhead (Option.filter_eq_some_iff.1 e).1
      have hrootless : ((component [] (splitTail cs).1).toList.head? != some '/') = true :=
        bne_iff_ne.2 (head?_component_ne hpath)
      rw [beq_false_of_ne hhead]
      exact hrootless

/-- An opaque URL has no scheme of the web, nor that of files. -/
theorem kind_of_isOpaque [DomainNames] {text : String} {u : Url} (h : parse text = .ok u)
    (ho : u.isOpaque = true) : u.kind = .other := by
  obtain ⟨scheme, cs, ht, hr⟩ := exists_readScheme_of_parse h
  rw [isOpaque_of_parse h, isHierarchical, ht] at ho
  rw [kind, readScheme_scheme hr]
  cases hk : SchemeKind.ofScheme scheme with
  | other => rfl
  | web => simp [hk, SchemeKind.isSpecial] at ho
  | file => simp [hk, SchemeKind.isSpecial] at ho

end Url
end RestDispatch
