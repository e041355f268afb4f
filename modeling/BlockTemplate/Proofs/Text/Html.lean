import BlockTemplate.Callback.Default
import BlockTemplate.Proofs.Text.Assembly
import BlockTemplate.Proofs.Text.Replacing
import Mathlib.Data.List.Basic

/-!
# Escaped texts

Escaping replaces one kind of reserved characters after the other, and every replacement goes over
the entities that the ones before have written. As no entity holds a character that is replaced
later, this comes to writing each character on its own, and a text can be read back by decoding
entities from the left.

## Key results

- `foldl_replaceAll_eq_flatMap`: replacements one after the other, as one pass over the characters
- `not_mem_escapeHtmlChars`: which characters are gone
- `decodeHtml_escapeHtml_toText`: what the escaping callback gives, and how it is read back
-/

namespace BlockTemplate

/-! ## Replacements one after the other -/

theorem valueOf?_eq_none_of_not_mem {β : Type} {c : Char} {table : List (Char × β)}
    (h : ∀ entry ∈ table, entry.1 ≠ c) : valueOf? c table = none := by
  induction table with
  | nil => rfl
  | cons entry rest ih =>
    obtain ⟨hne, hrest⟩ := List.forall_mem_cons.1 h
    rw [valueOf?, if_neg (mt eq_of_beq hne), ih hrest]

/-- Characters are replaced one kind after the other. If no replacement holds a character that is
    replaced later, each character of the text has been replaced once. -/
theorem foldl_replaceAll_eq_flatMap {table : List (Char × List Char)}
    (h : table.Pairwise fun first later => later.1 ∉ first.2) (s : List Char) :
    table.foldl (fun s entry => replaceAll [entry.1] entry.2 s) s
      = s.flatMap fun c => (valueOf? c table).getD [c] := by
  induction table generalizing s with
  | nil => exact (List.flatMap_singleton' s).symm
  | cons entry rest ih =>
    obtain ⟨hlater, hrest⟩ := List.pairwise_cons.1 h
    -- what has been written for the first kind is left alone by the later replacements
    have hkept : entry.2.flatMap (fun c => (valueOf? c rest).getD [c]) = entry.2 := by
      refine Eq.trans (List.flatMap_congr fun c hc => ?_) (List.flatMap_singleton' _)
      have hnone : valueOf? c rest = none :=
        valueOf?_eq_none_of_not_mem fun later hmem heq => hlater later hmem (heq ▸ hc)
      rw [hnone, Option.getD_none]
    rw [List.foldl_cons, ih hrest, replaceAll_singleton, List.flatMap_assoc]
    refine List.flatMap_congr fun c _ => ?_
    by_cases hc : c = entry.1
    · rw [if_pos hc, hkept, hc, valueOf?, if_pos BEq.rfl, Option.getD_some]
    · rw [if_neg hc, List.flatMap_singleton, valueOf?, if_neg (mt eq_of_beq (Ne.symm hc))]

/-! ## Escaping character by character -/

/-- What a character becomes: its entity if it is reserved, else itself. -/
def escapeHtmlChar (c : Char) : List Char := (valueOf? c htmlEntities).getD [c]

theorem escapeHtmlChars_eq_flatMap (s : List Char) :
    escapeHtmlChars s = s.flatMap escapeHtmlChar :=
  foldl_replaceAll_eq_flatMap (by decide) s

theorem escapeHtmlChar_cases (c : Char) :
    (∃ entry ∈ htmlEntities, entry.1 = c ∧ escapeHtmlChar c = entry.2)
      ∨ (∀ entry ∈ htmlEntities, entry.1 ≠ c) ∧ escapeHtmlChar c = [c] := by
  by_cases h : ∀ entry ∈ htmlEntities, entry.1 ≠ c
  · exact .inr ⟨h, by rw [escapeHtmlChar, valueOf?_eq_none_of_not_mem h, Option.getD_none]⟩
  · push Not at h
    obtain ⟨entry, hentry, rfl⟩ := h
    have hdistinct : DistinctKeys htmlEntities := by
      unfold DistinctKeys
      decide
    have hvalue := valueOf?_of_mem hdistinct hentry
    exact .inl ⟨entry, hentry, rfl, by rw [escapeHtmlChar, hvalue, Option.getD_some]⟩

/-- An entity is an ampersand and no further one. -/
theorem entity_eq {entry : Char × List Char} (h : entry ∈ htmlEntities) :
    ∃ body, entry.2 = '&' :: body ∧ '&' ∉ body := by
  have hall : ∀ entry ∈ htmlEntities, entry.2.head? = some '&' ∧ '&' ∉ entry.2.tail := by decide
  obtain ⟨hhead, htail⟩ := hall entry h
  obtain ⟨body, hbody⟩ := List.head?_eq_some_iff.1 hhead
  exact ⟨body, hbody, by rwa [hbody, List.tail_cons] at htail⟩

/-- The reserved characters other than the ampersand have entities, and are in none of them. -/
theorem reserved_of_mem {c : Char} (hc : c ∈ ['<', '>', '"', '\'']) :
    (∀ entry ∈ htmlEntities, c ∉ entry.2) ∧ ∃ entry ∈ htmlEntities, entry.1 = c := by
  simp only [List.mem_cons, List.not_mem_nil, or_false] at hc
  rcases hc with rfl | rfl | rfl | rfl <;> decide

/-- The reserved characters that are gone: all but the ampersand, which starts each entity. -/
theorem not_mem_escapeHtmlChars {c : Char} (hc : c ∈ ['<', '>', '"', '\'']) (s : List Char) :
    c ∉ escapeHtmlChars s := by
  obtain ⟨hentities, entry, hentry, hkey⟩ := reserved_of_mem hc
  rw [escapeHtmlChars_eq_flatMap]
  intro hmem
  obtain ⟨x, -, hx⟩ := List.mem_flatMap.1 hmem
  rcases escapeHtmlChar_cases x with ⟨other, hother, -, heq⟩ | ⟨hnone, heq⟩
  · exact hentities other hother (heq ▸ hx)
  · rw [heq, List.mem_singleton] at hx
    exact hnone entry hentry (hkey.trans hx)

/-- An ampersand in what a character becomes is the first character of its entity. -/
theorem exists_entity_of_escapeHtmlChar {c : Char} {before more : List Char}
    (h : escapeHtmlChar c = before ++ '&' :: more) :
    ∃ entry ∈ htmlEntities, entry.2 = '&' :: more := by
  rcases escapeHtmlChar_cases c with ⟨entry, hentry, -, heq⟩ | ⟨hnone, heq⟩
  · obtain ⟨body, hbody, hnot⟩ := entity_eq hentry
    rw [heq, hbody] at h
    cases before with
    | nil => exact ⟨entry, hentry, hbody.trans h⟩
    | cons d before =>
      obtain ⟨-, rfl⟩ := List.cons_eq_cons.1 h
      exact absurd (List.mem_append_right _ List.mem_cons_self) hnot
  · have hmem : '&' ∈ [c] := heq ▸ h ▸ List.mem_append_right _ List.mem_cons_self
    exact absurd (List.mem_singleton.1 hmem) (hnone _ List.mem_cons_self)

/-- Each ampersand of an escaped text starts an entity. -/
theorem exists_entity_of_ampersand {s before rest : List Char}
    (h : escapeHtmlChars s = before ++ '&' :: rest) :
    ∃ entry ∈ htmlEntities, entry.2 <+: '&' :: rest := by
  rw [escapeHtmlChars_eq_flatMap] at h
  induction s generalizing before with
  | nil => simp at h
  | cons c s ih =>
    rw [List.flatMap_cons] at h
    -- the ampersand is in what the first character has become, or behind it
    rcases List.append_eq_append_iff.1 h with ⟨more, -, hmore⟩ | ⟨more, hfirst, hmore⟩
    · exact ih hmore
    · cases more with
      | nil =>
        have hrest : s.flatMap escapeHtmlChar = [] ++ '&' :: rest := hmore.symm
        exact ih hrest
      | cons d more =>
        obtain ⟨rfl, rfl⟩ := List.cons_eq_cons.1 hmore
        obtain ⟨entry, hentry, heq⟩ := exists_entity_of_escapeHtmlChar hfirst
        exact ⟨entry, hentry, heq ▸ List.prefix_append _ _⟩

/-! ## Decoding -/

/-- The entity at the start of a text: the character that it stands for, and the text behind it. -/
def entityAt? (s : List Char) : Option (Char × List Char) :=
  htmlEntities.findSome? fun (c, entity) => (afterPattern? entity s).map fun after => (c, after)

/-- The text with a character for each entity, found from the left and without overlap: what a
    decoded character and the text behind it make up is no entity. -/
def decodeHtml (s : List Char) : List Char := replaceFound entityAt? (fun c => [c]) s

theorem entityAt?_append {entry : Char × List Char} (h : entry ∈ htmlEntities) (rest : List Char) :
    entityAt? (entry.2 ++ rest) = some (entry.1, rest) := by
  simp only [htmlEntities, List.mem_cons, List.not_mem_nil, or_false] at h
  rcases h with rfl | rfl | rfl | rfl | rfl <;> rfl

theorem entityAt?_of_ne {c : Char} (h : c ≠ '&') (rest : List Char) :
    entityAt? (c :: rest) = none := by
  rw [entityAt?, List.findSome?_eq_none_iff]
  intro entry hentry
  obtain ⟨body, hbody, -⟩ := entity_eq hentry
  show (afterPattern? entry.2 (c :: rest)).map _ = none
  rw [hbody, afterPattern?, if_neg (Ne.symm h), Option.map_none]

/-- What a character has become is decoded to it. -/
theorem decodeHtml_escapeHtmlChar_append (c : Char) (rest : List Char) :
    decodeHtml (escapeHtmlChar c ++ rest) = c :: decodeHtml rest := by
  rcases escapeHtmlChar_cases c with ⟨entry, hentry, rfl, heq⟩ | ⟨hnone, heq⟩
  · rw [heq]
    have hlt : rest.length < (entry.2 ++ rest).length := by
      obtain ⟨body, hbody, -⟩ := entity_eq hentry
      rw [hbody, List.length_append, List.length_cons]
      omega
    exact replaceFound_of_finds _ ⟨entityAt?_append hentry rest, hlt⟩
  · rw [heq]
    have hne : c ≠ '&' := fun h => hnone ('&', _) List.mem_cons_self h.symm
    refine replaceFound_of_findsNothing _ fun item after hfinds => ?_
    exact nomatch (entityAt?_of_ne hne rest).symm.trans hfinds.1

/-- Decoding an escaped text gives the text back, whatever stood in it. -/
theorem decodeHtml_escapeHtmlChars (s : List Char) : decodeHtml (escapeHtmlChars s) = s := by
  rw [escapeHtmlChars_eq_flatMap]
  induction s with
  | nil => exact replaceFound_nil _
  | cons c s ih => rw [List.flatMap_cons, decodeHtml_escapeHtmlChar_append, ih]

/-! ## The callback -/

/-- The callback that escapes gives a text for every value. Of the reserved characters only
    ampersands are left in it, each of them starts an entity, and decoding the entities gives back
    the text of the value. -/
theorem decodeHtml_escapeHtml_toText (v : Value) :
    ∃ escape out, Registry.default.get? "htmlspecialchars" = some escape
      ∧ escape [v] = .ok (.text out)
      ∧ (∀ c ∈ ['<', '>', '"', '\''], c ∉ out.toList)
      ∧ (∀ before rest, out.toList = before ++ '&' :: rest →
          ∃ entry ∈ htmlEntities, entry.2 <+: '&' :: rest)
      ∧ decodeHtml out.toList = v.toText.toList := by
  refine ⟨Callback.onText escapeHtml, escapeHtml v.toText, rfl, rfl, ?_⟩
  rw [escapeHtml, String.toList_ofList]
  exact ⟨fun c hc => not_mem_escapeHtmlChars hc _, fun _ _ => exists_entity_of_ampersand,
    decodeHtml_escapeHtmlChars _⟩

end BlockTemplate
