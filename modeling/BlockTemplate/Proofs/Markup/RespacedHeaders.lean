import Mathlib
import BlockTemplate.Proofs.Condition.Respacing
import BlockTemplate.Proofs.Template.ReadMarkers

/-!
# Respaced headers of loops

A loop header that is respaced denotes the same loop, as long as there are no other gaps than single
spaces in the tag of its collection.

## Key results

- `LoopHeader.parse?_respaced`: the loop of a respaced header
-/

namespace BlockTemplate

section
variable {s s' : List Char}

/-- A text in which all gaps are single spaces is not respaced. -/
theorem Respaced.eq_of_isSingleSpaced {previous : Option Char}
    (hs : Respaced trimmedRule none previous s s') (h : isSingleSpaced s) : s' = s := by
  induction hs with
  | last _ _ hrule =>
    obtain ⟨rfl, rfl⟩ := hrule.2 (.inr rfl)
    rfl
  | @cons _ g g' d t t' hg hg' hd hrule _ ih =>
    obtain ⟨hgap, hrest⟩ := isSingleSpaced_append h
    rw [isSingleSpaced, Bool.and_eq_true] at hrest
    obtain hkept | ⟨-, -, c, hc, hbreak⟩ := hrule.1
    · rw [hkept.eq_of_isSingleSpaced hg hgap, ih hrest.2]
    · rw [eq_space_of_mem hgap hc (hg c hc)] at hbreak
      exact absurd hbreak (by decide)

/-- A name in braces. -/
theorem bracedName?_respaced (hs : RespacedContent none s s') {name after : List Char}
    (h : bracedName? s = some (name, after)) :
    ∃ after', bracedName? s' = some (name, after') ∧ RespacedContent (some '}') after after' := by
  obtain ⟨rfl, hname⟩ := exists_of_bracedName? h
  have hword : ∀ c ∈ name ++ ['}'], isSpacing c = false ∧ c ≠ '>' := by
    intro c hc
    rcases List.mem_append.1 hc with hc | hc
    · exact not_bracket_of_isWord (hname.word c hc)
    · rw [List.mem_singleton.1 hc]
      exact ⟨by decide, by decide⟩
  have hsolid : isSolid (name ++ ['}']) :=
    List.all_eq_true.2 fun c hc => by rw [(hword c hc).1, Bool.not_false]
  have hbracket : '>' ∉ '{' :: (name ++ ['}']) := by
    rw [List.mem_cons, not_or]
    exact ⟨by decide, fun hmem => (hword '>' hmem).2 rfl⟩
  -- the name with its braces is a keyword like any other: no gap can be within it
  have hafter := hs.afterKeyword? '{' (name ++ ['}']) hsolid
    (fun hmem => hbracket (List.mem_of_mem_dropLast hmem))
  have hfound : afterPattern? ('{' :: (name ++ ['}'])) ('{' :: (name ++ '}' :: after))
      = some after := by
    have hself := afterPattern?_append_self ('{' :: (name ++ ['}'])) after
    rwa [List.cons_append, List.append_assoc] at hself
  rw [hfound] at hafter
  generalize hrest : afterPattern? ('{' :: (name ++ ['}'])) s' = o at hafter
  cases hafter with
  | @some _ after' h =>
    refine ⟨after', ?_, by simpa using h⟩
    rw [eq_append_of_afterPattern? hrest, List.cons_append, List.append_assoc]
    exact bracedName?_append hname after'

/-- The collection of a loop, without other gaps than single spaces in its tag. -/
theorem collectionAfterIn?_respaced {previous : Option Char} (hs : RespacedContent previous s s')
    {r : Reference} (h : collectionAfterIn? s = some r)
    (hsingle : isSingleSpaced r.source.shown.toList) : collectionAfterIn? s' = some r := by
  simp only [collectionAfterIn?, Option.bind_eq_bind, Option.bind_eq_some_iff, Option.pure_def,
    Option.some.injEq] at h ⊢
  obtain ⟨rest, hrest, body, hbody, rfl⟩ := h
  have hkeyword := hs.dropWhile_isBlank.1.afterKeyword? 'I' ['N'] (by decide) (by decide)
  rw [hrest] at hkeyword
  generalize hrest' : afterPattern? ['I', 'N'] (s'.dropWhile isBlank) = o at hkeyword
  cases hkeyword with
  | @some _ rest' hrests =>
    refine ⟨rest', rfl, body, ?_, rfl⟩
    -- the tag is as it was
    have hbraces := (exists_of_collectionTag? hbody).2
    have htag : isSingleSpaced (rest.dropWhile isBlank) := by
      rw [Reference.source_parse, Json.shown, String.toList_ofList] at hsingle
      rw [hbraces]
      exact isSingleSpaced_append_cons (s := []) rfl (by decide)
        (isSingleSpaced_append_cons hsingle (by decide) rfl)
    rw [hrests.dropWhile_isBlank.1.respaced.eq_of_isSingleSpaced htag, hbody]

end

/-! ## Loops -/

section
variable {header first rest : List Char}

/-- A header with one variable. -/
theorem LoopHeader.parse?_of_first (h : bracedName? header = some (first, rest))
    (hcomma : (rest.dropWhile isBlank).head? ≠ some ',') :
    LoopHeader.parse? header
      = (collectionAfterIn? (rest.dropWhile isBlank)).map
        (⟨none, .text (String.ofList first), ·⟩) := by
  rw [LoopHeader.parse?, h]
  simp only [Option.bind_eq_bind, Option.bind_some]
  split
  · rename_i heq
    exact absurd (by rw [heq]; rfl) hcomma
  · rw [Option.map_eq_bind]
    rfl

/-- A header with two variables. -/
theorem LoopHeader.parse?_of_comma {behind : List Char}
    (h : bracedName? header = some (first, rest))
    (hcomma : rest.dropWhile isBlank = ',' :: behind) :
    LoopHeader.parse? header
      = (bracedName? (behind.dropWhile isBlank)).bind fun second =>
        (collectionAfterIn? second.2).map
          (⟨some (.text (String.ofList first)), .text (String.ofList second.1), ·⟩) := by
  rw [LoopHeader.parse?, h]
  simp only [Option.bind_eq_bind, Option.bind_some, hcomma, Option.map_eq_bind]
  rfl

end

theorem LoopHeader.parse?_respaced {header header' : List Char}
    (hs : RespacedContent none header header') {parsed : LoopHeader}
    (h : LoopHeader.parse? header = some parsed)
    (hsingle : isSingleSpaced parsed.collection.source.shown.toList) :
    LoopHeader.parse? header' = some parsed := by
  obtain ⟨⟨first, rest⟩, hfirst, -⟩ := Option.bind_eq_some_iff.1 h
  obtain ⟨rest', hfirst', hrest⟩ := bracedName?_respaced hs hfirst
  have hblank := hrest.dropWhile_isBlank.1
  -- behind the first name both headers have a comma, or neither has one
  by_cases hcomma : (rest.dropWhile isBlank).head? = some ','
  · obtain ⟨behind, hbehind⟩ := List.head?_eq_some_iff.1 hcomma
    obtain ⟨hnil, -⟩ | ⟨d, t, t', hcons, hcons', -, ht⟩ := hblank.cases_cons
    · exact nomatch hbehind ▸ hnil
    · cases hbehind.symm.trans hcons
      rw [LoopHeader.parse?_of_comma hfirst hcons] at h
      obtain ⟨⟨second, after⟩, hsecond, h⟩ := Option.bind_eq_some_iff.1 h
      obtain ⟨collection, hcollection, rfl⟩ := Option.map_eq_some_iff.1 h
      obtain ⟨after', hsecond', hafter⟩ := bracedName?_respaced ht.dropWhile_isBlank.1 hsecond
      have hcollection' := collectionAfterIn?_respaced hafter hcollection hsingle
      rw [LoopHeader.parse?_of_comma hfirst' hcons', hsecond', Option.bind_some, hcollection',
        Option.map_some]
  · have hcomma' : (rest'.dropWhile isBlank).head? ≠ some ',' := by
      obtain ⟨-, hnil'⟩ | ⟨d, t, t', hcons, hcons', -, -⟩ := hblank.cases_cons
      · rw [hnil']
        exact nofun
      · rw [hcons, List.head?_cons] at hcomma
        rwa [hcons', List.head?_cons]
    rw [LoopHeader.parse?_of_first hfirst hcomma] at h
    obtain ⟨collection, hcollection, rfl⟩ := Option.map_eq_some_iff.1 h
    rw [LoopHeader.parse?_of_first hfirst' hcomma',
      collectionAfterIn?_respaced hblank hcollection hsingle]
    rfl

end BlockTemplate
