import RestDispatch.Declaration.Meaning
import RestDispatch.Proofs.Declaration.PrintedTokens

/-!
# Running what is generated for defaults

The default query parameters of a route are generated as a block of statements. `Rendered.evaluate?`
takes the text of the block apart and runs it statement by statement; a block of another form does
not run. `evaluate?_render` says that the block of an implementation runs, and what it gives.
-/

namespace RestDispatch.Declaration

open Token

/-! ### Statements -/

/-- The text that is made of a string literal at the head of tokens, and the tokens after it. -/
def evaluateString? : List Token → Option (String × List Token)
  | .literal _ (.text s) :: .mark '.' _ :: .word "to_string" :: .group .parenthesis [] :: rest =>
    some (s, rest)
  | _ => none

/-- The key and the value that the arguments of a call are. -/
def evaluateArguments? (ts : List Token) : Option (String × String) :=
  match evaluateString? ts with
  | some (k, .mark ',' _ :: rest) =>
    match evaluateString? rest with
    | some (v, []) => some (k, v)
    | _ => none
  | _ => none

/-- Runs the statements that insert into a query, up to the expression that gives it. -/
def runInserts (q : Query) : List Token → Option Query
  | [.word "query"] => some q
  | .word "query" :: .mark '.' _ :: .word "insert" :: .group .parenthesis args :: .mark ';' _ ::
      rest =>
    match evaluateArguments? args with
    | some (k, v) => runInserts (q.insert k v) rest
    | none => none
  | _ => none

/-- Runs a block that begins with a query without parameters. -/
def runBlock : List Token → Option Query
  | [.group .brace (.word "let" :: .word "mut" :: .word "query" :: .mark '=' _ :: .mark ':' _ ::
      .mark ':' _ :: .word "routekit" :: .mark ':' _ :: .mark ':' _ :: .word "QueryMap" ::
      .mark ':' _ :: .mark ':' _ :: .word "new" :: .group .parenthesis [] :: .mark ';' _ ::
      rest)] => runInserts .empty rest
  | _ => none

/-- The default query parameters that an implementation gives: those that its block makes, or none
where it has no block. -/
def Rendered.evaluate? (r : Rendered) : Option Query :=
  match r.defaultQuery with
  | none => some .empty
  | some text => (tokenize text).bind runBlock

/-! ### The tokens of a block -/

/-- The tokens of a string made from a literal. -/
def stringTokens (s : String) : List Token :=
  [.literal (literalText s) (.text s), .mark '.' false, .word "to_string", .group .parenthesis []]

/-- The tokens that insert a default query parameter. -/
def insertTokens (e : String × String) : List Token :=
  [.word "query", .mark '.' false, .word "insert",
    .group .parenthesis (stringTokens e.1 ++ .mark ',' false :: stringTokens e.2), .mark ';' false]

/-- The tokens of a path into the route library. -/
def libraryTokens (names : List String) : List Token :=
  ("routekit" :: names).flatMap fun n => [.mark ':' false, .mark ':' false, .word n]

/-- The tokens that make the default query parameters. -/
def defaultTokens (defaults : List (String × String)) : List Token :=
  [.word "let", .word "mut", .word "query", .mark '=' false] ++ libraryTokens ["QueryMap", "new"] ++
    [.group .parenthesis [], .mark ';' false] ++ defaults.flatMap insertTokens ++ [.word "query"]

theorem textsOfList_append (ts us : List Token) :
    textsOfList (ts ++ us) = textsOfList ts ++ textsOfList us := by
  induction ts with
  | nil => rfl
  | cons t ts ih => rw [List.cons_append, textsOfList, textsOfList, ih, List.append_assoc]

theorem textsOfList_insertTokens (e : String × String) :
    textsOfList (insertTokens e) = insertTexts e := rfl

theorem textsOfList_defaultTokens (defaults : List (String × String)) :
    textsOfList (defaultTokens defaults) = defaultTexts defaults := by
  have hinserts : textsOfList (defaults.flatMap insertTokens) = defaults.flatMap insertTexts := by
    induction defaults with
    | nil => rfl
    | cons e es ih =>
      rw [List.flatMap_cons, List.flatMap_cons, textsOfList_append, ih, textsOfList_insertTokens]
  rw [defaultTokens, defaultTexts, textsOfList_append, textsOfList_append, hinserts]
  rfl

theorem readsBack_stringTokens (s : String) : ∀ t ∈ stringTokens s, ReadsBack t := by
  simp only [stringTokens, List.forall_mem_cons]
  exact ⟨readsBack_literal s, readsBack_mark _ (by simp), readsBack_word _ (by simp),
    .group _ (by simp), by simp⟩

theorem readsBack_insertTokens (e : String × String) : ∀ t ∈ insertTokens e, ReadsBack t := by
  have hargs : ∀ t ∈ stringTokens e.1 ++ .mark ',' false :: stringTokens e.2, ReadsBack t := by
    rw [List.forall_mem_append, List.forall_mem_cons]
    exact ⟨readsBack_stringTokens _, readsBack_mark _ (by simp), readsBack_stringTokens _⟩
  simp only [insertTokens, List.forall_mem_cons]
  exact ⟨readsBack_word _ (by simp), readsBack_mark _ (by simp), readsBack_word _ (by simp),
    .group _ hargs, readsBack_mark _ (by simp), by simp⟩

theorem readsBack_libraryTokens : ∀ t ∈ libraryTokens ["QueryMap", "new"], ReadsBack t := by
  have hmark : ReadsBack (.mark ':' false) := readsBack_mark _ (by simp)
  have hword {n : String} (hn : n ∈ ["routekit", "QueryMap", "new"]) : ReadsBack (.word n) :=
    readsBack_word n (by revert n; simp)
  intro t ht
  obtain ⟨n, hn, ht⟩ := List.mem_flatMap.1 ht
  have hall : ∀ t ∈ [Token.mark ':' false, .mark ':' false, .word n], ReadsBack t := by
    simp only [List.forall_mem_cons]
    exact ⟨hmark, hmark, hword hn, by simp⟩
  exact hall t ht

theorem readsBack_defaultTokens (defaults : List (String × String)) :
    ∀ t ∈ defaultTokens defaults, ReadsBack t := by
  have hinserts : ∀ t ∈ defaults.flatMap insertTokens, ReadsBack t := by
    intro t ht
    obtain ⟨e, -, ht⟩ := List.mem_flatMap.1 ht
    exact readsBack_insertTokens e t ht
  simp only [defaultTokens, List.forall_mem_append, List.forall_mem_cons]
  refine ⟨⟨⟨⟨?_, readsBack_libraryTokens⟩, ?_⟩, hinserts⟩, ?_⟩
  · exact ⟨readsBack_word _ (by simp), readsBack_word _ (by simp), readsBack_word _ (by simp),
      readsBack_mark _ (by simp), by simp⟩
  · exact ⟨.group _ (by simp), readsBack_mark _ (by simp), by simp⟩
  · exact ⟨readsBack_word _ (by simp), by simp⟩

/-! ### What runs -/

theorem runInserts_append (q : Query) (e : String × String) (rest : List Token) :
    runInserts q (insertTokens e ++ rest) = runInserts (q.insert e.1 e.2) rest := rfl

/-- Statements that insert parameters insert them one after the other. -/
theorem runInserts_insertTokens (q : Query) (defaults : List (String × String)) :
    runInserts q (defaults.flatMap insertTokens ++ [.word "query"]) =
      some (defaults.foldl (fun q e => q.insert e.1 e.2) q) := by
  induction defaults generalizing q with
  | nil => rfl
  | cons e es ih => rw [List.flatMap_cons, List.append_assoc, runInserts_append, ih, List.foldl_cons]

theorem runBlock_defaultTokens (defaults : List (String × String)) :
    runBlock [.group .brace (defaultTokens defaults)] = some (.ofList defaults) :=
  runInserts_insertTokens .empty defaults

/-- **The block of an implementation runs**, and gives its defaults. -/
theorem evaluate?_render (i : Implementation) : i.render.evaluate? = some i.defaultQuery := by
  by_cases h : i.defaults = []
  · have hnone : i.render.defaultQuery = none := if_pos h
    rw [Rendered.evaluate?, hnone, Implementation.defaultQuery, h]
    rfl
  · have hblock : i.render.defaultQuery =
        some (spaced (Token.texts (.group .brace (defaultTokens i.defaults)))) := by
      rw [Token.texts, textsOfList_defaultTokens]
      exact if_neg h
    rw [Rendered.evaluate?, hblock]
    dsimp only
    rw [tokenize_spaced (readsBack_defaultTokens i.defaults), Option.bind_some,
      runBlock_defaultTokens, Implementation.defaultQuery]

end RestDispatch.Declaration
