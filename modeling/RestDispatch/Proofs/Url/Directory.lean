import RestDispatch.Proofs.Url.Percent
import RestDispatch.Proofs.Url.Reference

/-!
# Paths as directories

The path of a URL of the web is a stack of segments, each closed by a slash, and an open segment at
its end. `extendPath_eq_walk` says that reading a text behind such a path walks over the segments of
the text: `..` leaves a directory, `.` stays in it, and any other segment enters one. A path begins
with another path exactly when its stack ends in the stack of the other (`directory_prefix_iff`).
-/

namespace RestDispatch
namespace Url

/-- Segments that each fit between two slashes. -/
def Plain (stack : List (List Char)) : Prop := ∀ s ∈ stack, '/' ∉ s

/-- The path of a directory, which is given by its segments, the innermost first. -/
def directory : List (List Char) → List Char
  | [] => ['/']
  | s :: outer => directory outer ++ s ++ ['/']

/-- The directory of a path, as its segments. -/
def stackOf (path : List Char) : List (List Char) := (path.tail.splitOn '/').dropLast.reverse

/-- A directory without its innermost segment, which stays if it is the letter of a drive. -/
def ascend : List (List Char) → List (List Char)
  | [] => []
  | s :: outer => if startsWithDrive (s ++ ['/']) then s :: outer else outer

/-- The directory that a segment leads to. -/
def enter (stack : List (List Char)) (s : List Char) : List (List Char) :=
  if doubleDots.contains s then ascend stack
  else if singleDots.contains s then stack else s :: stack

/-- The directory that segments lead to, and the open segment at their end. -/
def walk : List (List Char) → List (List Char) → List (List Char) × List Char
  | stack, [] => (stack, [])
  | stack, [s] =>
    if doubleDots.contains s then (ascend stack, [])
    else if singleDots.contains s then (stack, []) else (stack, s)
  | stack, s :: t :: ss => walk (enter stack s) (t :: ss)

/-- The path that segments lead to from a directory. -/
def walkPath (stack ss : List (List Char)) : List Char :=
  directory (walk stack ss).1 ++ (walk stack ss).2

/-- A segment in the form in which it is written. -/
def written (s : List Char) : List Char := Percent.encode (Percent.allBut Percent.pathSet) s

/-- The segments of a text in the form in which they are written. -/
def segments (text : List Char) : List (List Char) := (text.splitOnP (isSlash .web)).map written

theorem walk_cons {ss : List (List Char)} (h : ss ≠ []) (stack : List (List Char)) (s : List Char) :
    walk stack (s :: ss) = walk (enter stack s) ss := by
  obtain ⟨t, ts, rfl⟩ := List.exists_cons_of_ne_nil h
  rfl

/-! ### The parent of a directory -/

theorem exists_directory_eq (stack : List (List Char)) : ∃ front, directory stack = front ++ ['/'] := by
  cases stack with
  | nil => exact ⟨[], rfl⟩
  | cons s outer => exact ⟨directory outer ++ s, rfl⟩

theorem getLast?_directory (stack : List (List Char)) : (directory stack).getLast? = some '/' := by
  obtain ⟨front, h⟩ := exists_directory_eq stack
  simp [h]

theorem dropWhile_reverse_append {s : List Char} (h : '/' ∉ s) (front : List Char) :
    (front ++ ['/'] ++ s).reverse.dropWhile (· ≠ '/') = (front ++ ['/']).reverse := by
  have hs : ∀ c ∈ s.reverse, decide (c ≠ '/') = true := fun c hc => by
    have hc := List.mem_reverse.1 hc
    exact decide_eq_true fun e => h (e ▸ hc)
  rw [List.reverse_append, List.dropWhile_append_of_pos hs]
  simp

theorem takeWhile_reverse_append {s : List Char} (h : '/' ∉ s) (front : List Char) :
    (front ++ ['/'] ++ s).reverse.takeWhile (· ≠ '/') = s.reverse := by
  have hs : ∀ c ∈ s.reverse, decide (c ≠ '/') = true := fun c hc => by
    have hc := List.mem_reverse.1 hc
    exact decide_eq_true fun e => h (e ▸ hc)
  rw [List.reverse_append, List.takeWhile_append_of_pos hs]
  simp

/-- Up to the last slash, a path is its directory. -/
theorem upToSlash_directory_append {s : List Char} (h : '/' ∉ s) (stack : List (List Char)) :
    upToSlash (directory stack ++ s) = directory stack := by
  obtain ⟨front, hf⟩ := exists_directory_eq stack
  rw [upToSlash, hf, dropWhile_reverse_append h, List.reverse_reverse]

theorem lastSegment_directory_append {s : List Char} (h : '/' ∉ s) (stack : List (List Char)) :
    lastSegment (directory stack ++ s) = s := by
  obtain ⟨front, hf⟩ := exists_directory_eq stack
  rw [lastSegment, hf, takeWhile_reverse_append h, List.reverse_reverse]

theorem upToSlash_directory (stack : List (List Char)) :
    upToSlash (directory stack) = directory stack := by
  simpa using upToSlash_directory_append (s := []) (by simp) stack

/-- The parent of a directory is the directory around it. -/
theorem parent_directory {stack : List (List Char)} (h : Plain stack) :
    parent .web (directory stack) = directory (ascend stack) := by
  cases stack with
  | nil => rfl
  | cons s outer =>
    have hs : '/' ∉ s := h s (by simp)
    have hlast : (directory (s :: outer)).getLast? = some '/' := getLast?_directory _
    have hbefore : (directory (s :: outer)).dropLast = directory outer ++ s := by
      simp [directory]
    have hroot : (directory outer ++ s).contains '/' = true := by
      obtain ⟨front, hf⟩ := exists_directory_eq outer
      simp [hf]
    have hdrop : canDropSlash (directory (s :: outer)) = !startsWithDrive (s ++ ['/']) := by
      simp only [canDropSlash, hbefore, hroot, lastSegment_directory_append hs, Bool.true_and]
    have hpop (path : List Char) : popSegment .web path = upToSlash path := by
      rw [popSegment, if_neg (by simp)]
    simp only [parent, hlast, hdrop, hbefore, hpop, ascend, true_and]
    cases startsWithDrive (s ++ ['/']) with
    | true => simpa using upToSlash_directory (s :: outer)
    | false => simpa using upToSlash_directory_append hs outer

theorem Plain.ascend {stack : List (List Char)} (h : Plain stack) : Plain (ascend stack) := by
  cases stack with
  | nil => exact h
  | cons s outer =>
    rw [Url.ascend]
    split
    · exact h
    · exact fun t ht => h t (by simp [ht])

theorem Plain.enter {stack : List (List Char)} (h : Plain stack) {s : List Char} (hs : '/' ∉ s) :
    Plain (enter stack s) := by
  unfold Url.enter
  split
  · exact h.ascend
  · split
    · exact h
    · exact List.forall_mem_cons.2 ⟨hs, h⟩

/-! ### Reading segments -/

/-- Percent-encoding makes no slashes. -/
theorem slash_notMem_encode {keep : Char → Bool} {cs : List Char} (h : '/' ∉ cs) :
    '/' ∉ Percent.encode keep cs := by
  intro hm
  rcases Percent.mem_encode hm with ⟨hc, -, -⟩ | ho
  · exact h hc
  · exact absurd ho (by decide)

/-- A segment before a slash leads from one directory to another. -/
theorem add_slash {stack : List (List Char)} (h : Plain stack) (s : List Char) (drive : Bool) :
    PathState.add .web ⟨directory stack, drive⟩ s true = ⟨directory (enter stack s), drive⟩ := by
  simp only [PathState.add, parent_directory h, getLast?_directory, enter, List.contains_iff_mem]
  split
  · rfl
  · split
    · rfl
    · simp [directory]

/-- The last segment of a text is the open segment of the path, unless it consists of dots. -/
theorem add_last {stack : List (List Char)} (h : Plain stack) (s : List Char) (drive : Bool) :
    PathState.add .web ⟨directory stack, drive⟩ s false = ⟨walkPath stack [s], drive⟩ := by
  simp only [PathState.add, parent_directory h, getLast?_directory, walkPath, walk,
    List.contains_iff_mem]
  split
  · simp
  · split <;> simp

/-- Reading a text behind a directory walks over the segments of the text; the induction is on the
text, and `segment` holds what has been read since the last slash. -/
theorem addAll_eq_walkPath {cs segment : List Char} {stack : List (List Char)} (drive : Bool)
    (h : Plain stack) (hs : '/' ∉ segment) :
    PathState.addAll .web ⟨directory stack, drive⟩ segment cs =
      ⟨walkPath stack ((List.splitOnPPrepend (isSlash .web) cs segment).map written), drive⟩ := by
  induction cs generalizing stack segment with
  | nil => exact add_last h _ drive
  | cons c cs ih =>
    cases hc : isSlash .web c with
    | true =>
      have hw : '/' ∉ written segment.reverse :=
        slash_notMem_encode (mt List.mem_reverse.1 hs)
      have hne : (cs.splitOnP (isSlash .web)).map written ≠ [] := by simp
      calc PathState.addAll .web ⟨directory stack, drive⟩ segment (c :: cs)
          = PathState.addAll .web
              (PathState.add .web ⟨directory stack, drive⟩ (written segment.reverse) true) [] cs := by
            rw [PathState.addAll, if_pos hc]; rfl
        _ = ⟨walkPath (enter stack (written segment.reverse))
              ((cs.splitOnP (isSlash .web)).map written), drive⟩ := by
            rw [add_slash h, ih (h.enter hw) (by simp), List.splitOnPPrepend_nil_right]
        _ = ⟨walkPath stack
              ((List.splitOnPPrepend (isSlash .web) (c :: cs) segment).map written), drive⟩ := by
            rw [List.splitOnPPrepend_cons_pos hc, List.map_cons, walkPath, walkPath,
              walk_cons hne]
    | false =>
      have hne : '/' ∉ c :: segment := by
        rw [List.mem_cons, not_or]
        refine ⟨?_, hs⟩
        rintro rfl
        cases hc
      rw [PathState.addAll, if_neg (by simp [hc]), ih h hne, List.splitOnPPrepend_cons_neg hc]

/-- The path that a text gives behind a directory of the web. -/
theorem extendPath_eq_walkPath {stack : List (List Char)} (h : Plain stack) (text : List Char) :
    (extendPath .web (directory stack) text).path = walkPath stack (segments text) := by
  rw [extendPath, addAll_eq_walkPath false h (by simp)]
  rfl

/-- Segments without slashes lead to directories and open segments without slashes. -/
theorem Plain.walk {stack ss : List (List Char)} (h : Plain stack) (hs : Plain ss) :
    Plain (walk stack ss).1 ∧ '/' ∉ (walk stack ss).2 := by
  induction ss generalizing stack with
  | nil => exact ⟨h, by simp [Url.walk]⟩
  | cons s ss ih =>
    have hs' := List.forall_mem_cons.1 hs
    cases ss with
    | nil =>
      unfold Url.walk
      split
      · exact ⟨h.ascend, by simp⟩
      · split
        · exact ⟨h, by simp⟩
        · exact ⟨h, hs'.1⟩
    | cons t ts => exact ih (h.enter hs'.1) hs'.2

/-- No separator stands in a part of a text that was split. -/
theorem eq_false_of_mem_splitOnP {p : Char → Bool} {cs : List Char} :
    ∀ s ∈ cs.splitOnP p, ∀ c ∈ s, p c = false := by
  induction cs with
  | nil => simp
  | cons d ds ih =>
    rw [List.splitOnP_cons_eq_if_modifyHead]
    split
    · exact List.forall_mem_cons.2 ⟨by simp, ih⟩
    · next hd =>
      obtain ⟨t, ts, e⟩ := List.exists_cons_of_ne_nil (List.splitOnP_ne_nil p ds)
      rw [e, List.forall_mem_cons] at ih
      rw [e, List.modifyHead_cons, List.forall_mem_cons]
      exact ⟨List.forall_mem_cons.2 ⟨by simpa using hd, ih.1⟩, ih.2⟩

theorem plain_segments (text : List Char) : Plain (segments text) := by
  intro s hs
  obtain ⟨t, ht, rfl⟩ := List.mem_map.1 hs
  refine slash_notMem_encode fun hm => ?_
  have := eq_false_of_mem_splitOnP t ht '/' hm
  cases this

/-! ### Paths that begin with other paths -/

/-- Segments, each closed by a slash. -/
def closed (ss : List (List Char)) : List Char := ss.flatMap (· ++ ['/'])

@[simp] theorem closed_cons (s : List Char) (ss : List (List Char)) :
    closed (s :: ss) = s ++ '/' :: closed ss := by simp [closed]

theorem closed_append (ss ts : List (List Char)) : closed (ss ++ ts) = closed ss ++ closed ts :=
  List.flatMap_append

theorem directory_eq_closed (stack : List (List Char)) :
    directory stack = '/' :: closed stack.reverse := by
  induction stack with
  | nil => rfl
  | cons s outer ih => simp [directory, ih, closed]

/-- Closed segments are what the text behind them is split into before the rest. -/
theorem splitOn_closed_append {ss : List (List Char)} (h : Plain ss) (rest : List Char) :
    (closed ss ++ rest).splitOn '/' = ss ++ rest.splitOn '/' := by
  induction ss with
  | nil => rfl
  | cons s ss ih =>
    have hs := List.forall_mem_cons.1 h
    calc (closed (s :: ss) ++ rest).splitOn '/'
        = (s ++ '/' :: (closed ss ++ rest)).splitOn '/' := by simp
      _ = s :: (closed ss ++ rest).splitOn '/' :=
          List.splitOn_append_cons_self_of_not_mem hs.1 _
      _ = s :: ss ++ rest.splitOn '/' := by rw [ih hs.2, List.cons_append]

theorem Plain.reverse {ss : List (List Char)} (h : Plain ss) : Plain ss.reverse :=
  fun s hs => h s (List.mem_reverse.1 hs)

/-- A path in a directory begins with the path of another directory exactly when it lies in it. -/
theorem directory_prefix_iff {stack outer : List (List Char)} {last : List Char} (hs : Plain stack)
    (ho : Plain outer) (hl : '/' ∉ last) :
    directory outer <+: directory stack ++ last ↔ outer <:+ stack := by
  rw [directory_eq_closed, directory_eq_closed, List.cons_append, List.cons_prefix_cons,
    and_iff_right rfl, ← List.reverse_prefix]
  constructor
  · rintro ⟨rest, h⟩
    have hsplit : outer.reverse ++ rest.splitOn '/' = stack.reverse ++ [last] := by
      rw [← splitOn_closed_append ho.reverse, h, splitOn_closed_append hs.reverse,
        List.splitOn_eq_singleton hl]
    have hlen : outer.reverse.length ≤ stack.reverse.length := by
      have h1 := congrArg List.length hsplit
      have h2 := List.length_pos_iff.2 (List.splitOn_ne_nil '/' rest)
      simp only [List.length_append, List.length_singleton] at h1
      omega
    exact List.prefix_of_prefix_length_le ⟨_, hsplit⟩ (List.prefix_append _ _) hlen
  · rintro ⟨inner, h⟩
    rw [← h, closed_append, List.append_assoc]
    exact List.prefix_append _ _

/-- Every text is closed segments and an open one. -/
theorem exists_closed_append (cs : List Char) :
    ∃ ss last, cs = closed ss ++ last ∧ Plain ss ∧ '/' ∉ last := by
  induction cs with
  | nil => exact ⟨[], [], rfl, by simp [Plain], by simp⟩
  | cons c cs ih =>
    obtain ⟨ss, last, rfl, hs, hl⟩ := ih
    by_cases hc : '/' = c
    · subst hc
      exact ⟨[] :: ss, last, rfl, List.forall_mem_cons.2 ⟨by simp, hs⟩, hl⟩
    · cases ss with
      | nil => exact ⟨[], c :: last, rfl, hs, by simp [hc, hl]⟩
      | cons s ss =>
        have hs' := List.forall_mem_cons.1 hs
        exact ⟨(c :: s) :: ss, last, by simp, List.forall_mem_cons.2 ⟨by simp [hc, hs'.1], hs'.2⟩,
          hl⟩

/-- A path between two slashes is that of its directory. -/
theorem directory_stackOf {path : List Char} (hh : path.head? = some '/')
    (hl : path.getLast? = some '/') : directory (stackOf path) = path ∧ Plain (stackOf path) := by
  obtain ⟨cs, rfl⟩ : ∃ cs, path = '/' :: cs := List.head?_eq_some_iff.1 hh
  obtain ⟨ss, last, rfl, hs, hn⟩ := exists_closed_append cs
  have hstack : stackOf ('/' :: (closed ss ++ last)) = ss.reverse := by
    rw [stackOf, List.tail_cons, splitOn_closed_append hs, List.splitOn_eq_singleton hn,
      List.dropLast_concat]
  have hlast : last = [] := by
    rcases List.eq_nil_or_concat last with e | ⟨init, c, e⟩
    · exact e
    · rw [e, List.concat_eq_append, ← List.append_assoc, ← List.cons_append,
        List.getLast?_concat, Option.some.injEq] at hl
      exact absurd (by simp [e, hl]) hn
  rw [hstack, hlast, directory_eq_closed, List.reverse_reverse, List.append_nil]
  exact ⟨rfl, hs.reverse⟩

end Url
end RestDispatch
