import BlockTemplate.Proofs.Markup.Bodies
import BlockTemplate.Proofs.Template.Canonical

/-!
# Markers that have been read

A marker may be read from a comment with other blanks in it than those with which it is written. If
no other comment starts in the comment, then what it says can be written again: names are words, the
text of a condition has no blanks around it, and the header of a loop is read as it is written.

## Key results

- `Extent.IsOf.isName_of_blockBegin`, `Extent.IsOf.isHeader_of_ifBegin`: what it says
- `LoopHeader.isCanonical_of_parse?`: the header of a loop is canonical
-/

namespace BlockTemplate

/-! ## Patterns within a text -/

theorem occursIn_within {pattern s t : List Char} (hne : pattern ≠ []) (ht : t <:+: s)
    (h : occursIn pattern s = false) : occursIn pattern t = false := by
  obtain ⟨before, after, rfl⟩ := ht
  have hfront : occursIn pattern (before ++ t) = false := occursIn_of_append hne after h
  clear h
  induction before with
  | nil => exact hfront
  | cons c before ih => exact ih (afterPattern?_eq_none_of_occursIn hfront).2

/-- In front of its first occurrence a pattern does not occur. -/
theorem occursIn_before_of_splitAtPattern? {pattern s before after : List Char}
    (hne : pattern ≠ []) (h : splitAtPattern? pattern s = some (before, after)) :
    occursIn pattern before = false := by
  induction s generalizing before with
  | nil =>
    simp only [splitAtPattern?, List.isEmpty_iff, hne, if_false] at h
    cases h
  | cons c s ih =>
    have hwhole := (splitAtPattern?_take h).1
    simp only [splitAtPattern?] at h
    split at h
    · cases h
      simpa [occursIn] using hne
    · rename_i hnone
      obtain ⟨⟨before', after'⟩, hsplit, heq⟩ := Option.map_eq_some_iff.1 h
      cases heq
      -- a pattern that starts in the shorter text would also start in the longer one
      have hhere : afterPattern? pattern (c :: before') = none := by
        rw [Option.eq_none_iff_forall_ne_some]
        intro found hfound
        have hmore := afterPattern?_append_of_some hfound (pattern ++ after')
        rw [List.cons_append, ← List.append_assoc, ← List.cons_append, ← List.cons_append,
          ← hwhole, hnone] at hmore
        cases hmore
      simp [occursIn, startsWith, hhere, ih hsplit]

/-- A pattern does not start among characters other than its first one. -/
theorem occursIn_append_of_not_mem {p : Char} {pattern s : List Char} (hp : p ∉ s)
    (rest : List Char) : occursIn (p :: pattern) (s ++ rest) = occursIn (p :: pattern) rest := by
  induction s with
  | nil => rfl
  | cons c s ih =>
    have hc : p ≠ c := fun heq => hp (heq ▸ List.mem_cons_self)
    have hs := ih fun hmem => hp (List.mem_cons_of_mem _ hmem)
    simp [occursIn, startsWith, afterPattern?, hc, hs]

/-- A pattern does not end with a character that is not in it. -/
theorem occursIn_concat {pattern s : List Char} (hne : pattern ≠ []) {d : Char} (hd : d ∉ pattern)
    (h : occursIn pattern s = false) : occursIn pattern (s ++ [d]) = false := by
  induction s with
  | nil =>
    obtain ⟨p, pattern, rfl⟩ := List.exists_cons_of_ne_nil hne
    have hp : p ∉ [d] := fun hmem => hd (List.mem_singleton.1 hmem ▸ List.mem_cons_self)
    exact occursIn_eq_false_of_not_mem hp pattern
  | cons c s ih =>
    obtain ⟨hhere, hs⟩ := afterPattern?_eq_none_of_occursIn h
    have hcross := afterPattern?_append_cons hd hhere []
    rw [List.cons_append] at hcross ⊢
    rw [occursIn, startsWith, hcross, ih hs]
    rfl

/-! ## What markers say -/

/-- What a comment says that is a marker. -/
theorem exists_content_of_marker? {s : List Char} {m : Marker}
    (h : marker? s = some (m, s.length)) :
    ∃ content, s = commentStart ++ content ++ commentEnd ∧ occursIn commentEnd content = false
      ∧ Marker.ofContent? (trimBlank content) = some m := by
  simp only [marker?, comment?, Option.bind_eq_bind, Option.pure_def, Option.bind_eq_some_iff,
    Option.some.injEq, Prod.mk.injEq] at h
  obtain ⟨content, ⟨inner, hstart, ⟨before, after⟩, hsplit, rfl⟩, _, hcontent, rfl, hsize⟩ := h
  have hwhole := eq_append_of_afterPattern? hstart
  rw [(splitAtPattern?_take hsplit).1] at hwhole
  -- the comment is the whole text, so that nothing stands behind it
  have hafter : after = [] := by
    have hlength := congrArg List.length hwhole
    simp only [List.length_append] at hlength
    dsimp only [commentSize] at hsize
    exact List.length_eq_zero_iff.1 (by omega)
  subst hafter
  refine ⟨before, ?_, occursIn_before_of_splitAtPattern? (by decide) hsplit, hcontent⟩
  rw [hwhole, List.append_nil, List.append_assoc]

/-- What the content of a marker with a name or a header is read from. -/
theorem Marker.of_ofContent? {content : List Char} {m : Marker}
    (h : Marker.ofContent? content = some m) :
    match m with
    | .blockBegin name => nameAfter? ['B', 'E', 'G', 'I', 'N', ':'] content = some name
    | .loopBegin header => headerAfter? ['F', 'O', 'R'] content = some header
    | .ifBegin condition => headerAfter? ['I', 'F'] content = some condition
    | _ => True := by
  unfold Marker.ofContent? at h
  split at h
  · cases h
    trivial
  split at h
  · cases h
    trivial
  split at h
  · cases h
    trivial
  simp only [Option.orElse_eq_orElse, Option.orElse_eq_or, Option.or_eq_some_iff,
    Option.map_eq_some_iff] at h
  obtain ⟨name, hname, rfl⟩ | ⟨-, ⟨name, -, rfl⟩ | ⟨-, ⟨header, hheader, rfl⟩
    | ⟨-, condition, hcondition, rfl⟩⟩⟩ := h
  · exact hname
  · trivial
  · exact hheader
  · exact hcondition

theorem isName_of_nameAfter? {keyword content name : List Char}
    (h : nameAfter? keyword content = some name) : IsName name := by
  simp only [nameAfter?, Option.bind_eq_bind, Option.bind_eq_some_iff] at h
  obtain ⟨rest, -, h⟩ := h
  split at h
  · cases h
  · rename_i hname
    cases h
    simp only [Bool.or_eq_true, not_or, Bool.not_eq_true, Bool.not_eq_false'] at hname
    exact isName_of_all (by simpa using hname.1) hname.2

/-- What stands behind a keyword ends where the content does. -/
theorem suffix_of_headerAfter? {keyword content header : List Char}
    (h : headerAfter? keyword content = some header) :
    header <:+ content ∧ ∀ c ∈ header.head?, isBlank c = false := by
  simp only [headerAfter?, Option.bind_eq_bind, Option.bind_eq_some_iff] at h
  obtain ⟨rest, hrest, h⟩ := h
  split at h
  · cases h
    rw [eq_append_of_afterPattern? hrest]
    exact ⟨(List.dropWhile_suffix _).trans (List.suffix_append _ _), head_dropWhile_eq_false⟩
  · cases h

namespace Extent

namespace IsOf

variable {e : Extent} {m : Marker}

/-- In a marker with a header there is neither the start nor the end of a comment. -/
theorem exists_content (h : e.IsOf m) (hapart : e.isApart) :
    ∃ content, Marker.ofContent? (trimBlank content) = some m
      ∧ occursIn commentStart content = false ∧ occursIn commentEnd content = false := by
  obtain ⟨content, hcomment, hend, hcontent⟩ := exists_content_of_marker? h.comment
  rw [isApart, Bool.not_eq_true', hcomment] at hapart
  refine ⟨content, hcontent, ?_, hend⟩
  exact occursIn_within (by decide) ⟨['!', '-', '-'], commentEnd, by simp [commentStart]⟩ hapart

theorem isName_of_blockBegin {name : List Char} (h : e.IsOf (.blockBegin name)) : IsName name := by
  obtain ⟨content, -, -, hcontent⟩ := exists_content_of_marker? h.comment
  exact isName_of_nameAfter? (Marker.of_ofContent? hcontent)

theorem isHeader_of_ifBegin {condition : List Char} (h : e.IsOf (.ifBegin condition))
    (hapart : e.isApart) (hne : condition ≠ []) : IsHeader condition := by
  obtain ⟨content, hcontent, hstart, hend⟩ := h.exists_content hapart
  obtain ⟨hsuffix, hhead⟩ := suffix_of_headerAfter? (Marker.of_ofContent? hcontent)
  have hwithin := hsuffix.isInfix.trans (trimBoth_within content)
  refine ⟨hne, trimBoth_eq_self ⟨hhead, ?_⟩ hne, occursIn_within (by decide) hwithin hstart,
    occursIn_within (by decide) hwithin hend⟩
  -- the condition ends where the content does, and that has no blanks around it
  obtain ⟨before, hbefore⟩ := hsuffix
  intro c hc
  refine getLast?_trimBoth_eq_false (s := content) c ?_
  have hlast : (before ++ condition).getLast? = condition.getLast? := by
    rw [List.getLast?_append, List.getLast?_eq_some_getLast hne, Option.some_or]
  rw [← hlast, hbefore] at hc
  exact hc

theorem occursIn_eq_false_of_loopBegin {header : List Char} (h : e.IsOf (.loopBegin header))
    (hapart : e.isApart) :
    occursIn commentStart header = false ∧ occursIn commentEnd header = false := by
  obtain ⟨content, hcontent, hstart, hend⟩ := h.exists_content hapart
  have hsuffix := (suffix_of_headerAfter? (Marker.of_ofContent? hcontent)).1
  have hwithin := hsuffix.isInfix.trans (trimBoth_within content)
  exact ⟨occursIn_within (by decide) hwithin hstart, occursIn_within (by decide) hwithin hend⟩

end IsOf

end Extent

/-! ## Headers of loops -/

theorem exists_of_bracedName? {s name after : List Char}
    (h : bracedName? s = some (name, after)) :
    s = '{' :: (name ++ '}' :: after) ∧ IsName name := by
  unfold bracedName? at h
  split at h
  · rename_i rest
    split at h
    · rename_i c word behind htake hdrop
      cases h
      have hsplit := List.takeWhile_append_dropWhile (p := isWord) (l := rest)
      rw [htake, hdrop] at hsplit
      refine ⟨by rw [← hsplit], isName_of_all (List.cons_ne_nil _ _) ?_⟩
      rw [← htake]
      exact List.all_takeWhile
    · exact nomatch h
  · exact nomatch h

/-- The text of a tag that is a collection. -/
theorem exists_of_collectionTag? {s body : List Char} (h : collectionTag? s = some body) :
    IsCollection body ∧ s = '{' :: (body ++ ['}']) := by
  unfold collectionTag? at h
  split at h
  · rename_i rest
    dsimp only at h
    have hwhole (hlast : rest.getLast? = some '}') :
        '{' :: rest = '{' :: (rest.dropLast ++ ['}']) := by
      rw [List.dropLast_append_getLast? _ hlast]
    -- the name is the longest run of name characters; what is left is nothing or the calls
    have hsplit := List.takeWhile_append_dropWhile (p := isEmbeddedName) (l := rest.dropLast)
    have hname : ∀ c ∈ rest.dropLast.takeWhile isEmbeddedName, isEmbeddedName c = true :=
      List.all_eq_true.1 List.all_takeWhile
    split at h
    · exact nomatch h
    · rename_i hdrop hne
      split at h
      · rename_i hlast
        cases h
        rw [hdrop] at hsplit
        exact ⟨⟨_, [], hsplit.symm, hne, hname, .inl rfl⟩, hwhole hlast⟩
      · exact nomatch h
    · rename_i calls hdrop hne
      split at h
      · rename_i hcalls
        cases h
        rw [hdrop] at hsplit
        exact ⟨⟨_, '|' :: calls, hsplit.symm, hne, hname, .inr ⟨calls, rfl, hcalls.2⟩⟩,
          hwhole hcalls.1⟩
      · exact nomatch h
    · exact nomatch h
  · exact nomatch h

theorem exists_collection_of_collectionAfterIn? {s : List Char} {r : Reference}
    (h : collectionAfterIn? s = some r) :
    ∃ body, r = Reference.parse body ∧ IsCollection body ∧ body <:+: s := by
  simp only [collectionAfterIn?, Option.bind_eq_bind, Option.bind_eq_some_iff, Option.pure_def,
    Option.some.injEq] at h
  obtain ⟨rest, hrest, body, hbody, rfl⟩ := h
  obtain ⟨hcollection, hbraces⟩ := exists_of_collectionTag? hbody
  have hwithin : body <:+: rest.dropWhile isBlank := hbraces ▸ ⟨['{'], ['}'], rfl⟩
  have hwhole := eq_append_of_afterPattern? hrest
  refine ⟨body, rfl, hcollection, hwithin.trans ?_⟩
  have hsuffix : rest <:+ s.dropWhile isBlank := hwhole ▸ List.suffix_append _ _
  exact ((List.dropWhile_suffix _).trans (hsuffix.trans (List.dropWhile_suffix _))).isInfix

/-- A pattern is not in the written header of a loop if it is not in the collection. -/
theorem occursIn_braces {p : Char} {pattern before body : List Char} (hp : p ∉ before)
    (hbrace : '}' ∉ p :: pattern) (h : occursIn (p :: pattern) body = false) :
    occursIn (p :: pattern) (before ++ (body ++ ['}'])) = false := by
  rw [occursIn_append_of_not_mem hp]
  exact occursIn_concat (List.cons_ne_nil _ _) hbrace h

theorem IsName.isNameLabel {name : List Char} (h : IsName name) :
    (Json.text (String.ofList name)).IsNameLabel :=
  ⟨_, rfl, by rwa [String.toList_ofList]⟩

namespace LoopHeader

/-- A header of two names and a collection that holds no start and no end of a comment. -/
theorem isCanonical_of_key {key value body : List Char} (hkey : IsName key) (hvalue : IsName value)
    (hbody : IsCollection body) (hstart : occursIn commentStart body = false)
    (hend : occursIn commentEnd body = false) :
    (LoopHeader.mk (some (.text (String.ofList key))) (.text (String.ofList value))
      (.parse body)).IsCanonical := by
  have hwritten : (LoopHeader.toSource ⟨some (.text (String.ofList key)),
      .text (String.ofList value), .parse body⟩).toList
      = '{' :: (key ++ ['}', ',', ' ', '{'] ++ value ++ ['}', ' ', 'I', 'N', ' ', '{'])
        ++ (body ++ ['}']) := by
    have hne : (String.ofList key == "") = false := by simpa using hkey.nonempty
    simp [toSource, boundKey?, Json.shown, Reference.toSource, Reference.source_parse,
      Option.filter, Json.isNothing, hne]
  refine ⟨fun label hlabel => ?_, hvalue.isNameLabel, ⟨body, rfl, hbody⟩, ?_, ?_⟩
  · cases hlabel
    exact hkey.isNameLabel
  · rw [hwritten]
    refine occursIn_braces ?_ (by decide) hstart
    simp [hkey.not_mem (c := '<') (by decide), hvalue.not_mem (c := '<') (by decide)]
  · rw [hwritten]
    refine occursIn_braces ?_ (by decide) hend
    simp [hkey.not_mem (c := '-') (by decide), hvalue.not_mem (c := '-') (by decide)]

/-- A header of one name and such a collection. -/
theorem isCanonical_of_value {value body : List Char} (hvalue : IsName value)
    (hbody : IsCollection body) (hstart : occursIn commentStart body = false)
    (hend : occursIn commentEnd body = false) :
    (LoopHeader.mk none (.text (String.ofList value)) (.parse body)).IsCanonical := by
  have hwritten : (LoopHeader.toSource ⟨none, .text (String.ofList value), .parse body⟩).toList
      = '{' :: (value ++ ['}', ' ', 'I', 'N', ' ', '{']) ++ (body ++ ['}']) := by
    simp [toSource, boundKey?, Json.shown, Reference.toSource, Reference.source_parse]
  refine ⟨fun _ hlabel => (by cases hlabel), hvalue.isNameLabel, ⟨body, rfl, hbody⟩, ?_, ?_⟩
  · rw [hwritten]
    refine occursIn_braces ?_ (by decide) hstart
    simp [hvalue.not_mem (c := '<') (by decide)]
  · rw [hwritten]
    refine occursIn_braces ?_ (by decide) hend
    simp [hvalue.not_mem (c := '-') (by decide)]

/-- A header that has been read from a text without the start or the end of a comment. -/
theorem isCanonical_of_parse? {text : List Char} {header : LoopHeader}
    (h : LoopHeader.parse? text = some header) (hstart : occursIn commentStart text = false)
    (hend : occursIn commentEnd text = false) : header.IsCanonical := by
  unfold LoopHeader.parse? at h
  obtain ⟨⟨first, rest⟩, hfirst, h⟩ := Option.bind_eq_some_iff.1 h
  obtain ⟨htext, hfirst⟩ := exists_of_bracedName? hfirst
  have hrest : rest <:+: text := htext ▸ ⟨'{' :: (first ++ ['}']), [], by simp⟩
  -- the collection lies in the text, so that it holds neither as well
  dsimp only at h
  split at h
  · -- two names before the keyword: a key and a value
    rename_i afterComma hcomma
    obtain ⟨⟨second, behind⟩, hsecond, h⟩ := Option.bind_eq_some_iff.1 h
    obtain ⟨collection, hcollection, h⟩ := Option.bind_eq_some_iff.1 h
    cases h
    obtain ⟨hafter, hsecond⟩ := exists_of_bracedName? hsecond
    obtain ⟨body, rfl, hbody, hwithin⟩ := exists_collection_of_collectionAfterIn? hcollection
    have hdrop : behind <:+ afterComma.dropWhile isBlank :=
      hafter ▸ ⟨'{' :: (second ++ ['}']), by simp⟩
    have hcommaSuffix : afterComma <:+ rest.dropWhile isBlank := hcomma ▸ List.suffix_cons _ _
    have hbehind : behind <:+ rest := (hdrop.trans (List.dropWhile_suffix _)).trans
      (hcommaSuffix.trans (List.dropWhile_suffix _))
    have hinside := (hwithin.trans hbehind.isInfix).trans hrest
    exact isCanonical_of_key hfirst hsecond hbody (occursIn_within (by decide) hinside hstart)
      (occursIn_within (by decide) hinside hend)
  · -- one name: the value alone
    obtain ⟨collection, hcollection, h⟩ := Option.bind_eq_some_iff.1 h
    cases h
    obtain ⟨body, rfl, hbody, hwithin⟩ := exists_collection_of_collectionAfterIn? hcollection
    have hinside := (hwithin.trans (List.dropWhile_suffix isBlank).isInfix).trans hrest
    exact isCanonical_of_value hfirst hbody (occursIn_within (by decide) hinside hstart)
      (occursIn_within (by decide) hinside hend)

end LoopHeader

end BlockTemplate
