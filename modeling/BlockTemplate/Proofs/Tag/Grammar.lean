import BlockTemplate.Proofs.Markup.Slice
import BlockTemplate.Tag

/-!
# The grammar of tags

A tag is a pair of braces around a character that can start a tag and any sequence of characters
that are no braces and of tags, with a character that can end a tag in front of the closing brace.
The matcher goes over a text once and only counts the tags that are open: over each tag it passes as
a whole, and what it reads up to the brace that closes the first tag is a sequence of such items.

## Key results

- `IsTagItems.tagBody?_append`: the matcher passes over items
- `isTagItems_of_tagBody?`: what the matcher reads are items
- `tagEnd?_eq_some_iff`: the matcher finds the end of a tag, and of nothing else
-/

namespace BlockTemplate

mutual

/-- A tag: braces around a first character and any sequence of characters that are no braces and of
    tags, with a character in front of the closing brace that can stand there. -/
inductive IsTag : List Char → Prop where
  | braces {first : Char} {items : List Char} : isTagStart first → IsTagItems items →
    isTagEnd (items.getLastD first) → IsTag ('{' :: first :: (items ++ ['}']))

/-- A sequence of characters that are no braces and of tags. -/
inductive IsTagItems : List Char → Prop where
  | nil : IsTagItems []
  | char {c : Char} {items : List Char} : c ≠ '{' → c ≠ '}' → IsTagItems items →
    IsTagItems (c :: items)
  | tag {t items : List Char} : IsTag t → IsTagItems items → IsTagItems (t ++ items)

end

/-! ## Tags are accepted -/

theorem ne_brace_of_isTagStart {c : Char} (h : isTagStart c) : c ≠ '{' ∧ c ≠ '}' := by
  constructor
  · rintro rfl
    exact absurd h (by decide)
  · rintro rfl
    exact absurd h (by decide)

section
variable (depth : Nat) (last : Char)

theorem tagBody?_cons_of_ne {c : Char} (hopen : c ≠ '{') (hclose : c ≠ '}') (rest : List Char) :
    tagBody? depth last (c :: rest)
      = (tagBody? depth c rest).map fun (body, after) => (c :: body, after) := by
  rw [tagBody?.eq_def]
  simp only [if_neg hopen, if_neg hclose]

theorem tagBody?_open {first : Char} (h : isTagStart first) (rest : List Char) :
    tagBody? depth last ('{' :: first :: rest)
      = (tagBody? (depth + 1) first rest).map
          fun (body, after) => ('{' :: first :: body, after) := by
  have hfirst := ne_brace_of_isTagStart h
  rw [tagBody?.eq_def]
  simp [h, tagBody?_cons_of_ne _ _ hfirst.1 hfirst.2, Function.comp_def]

theorem tagBody?_close (h : isTagEnd last) (rest : List Char) :
    tagBody? (depth + 1) last ('}' :: rest)
      = (tagBody? depth '}' rest).map fun (body, after) => ('}' :: body, after) := by
  rw [tagBody?.eq_def]
  simp [h]

end

theorem getLastD_tag_append {t : List Char} (h : IsTag t) (items : List Char) (last : Char) :
    (t ++ items).getLastD last = items.getLastD '}' := by
  obtain @⟨first, inner, -, -, -⟩ := h
  cases items with
  | nil =>
    show ('{' :: first :: inner ++ ['}'] ++ []).getLastD last = '}'
    rw [List.append_nil, List.getLastD_concat]
  | cons c items => simp [List.getLastD_eq_getLast?, List.getLast?_cons]

mutual

/-- The matcher passes over a tag. -/
theorem IsTag.tagBody?_append {t : List Char} (h : IsTag t) (depth : Nat) (last : Char)
    (rest : List Char) :
    tagBody? depth last (t ++ rest)
      = (tagBody? depth '}' rest).map fun (body, after) => (t ++ body, after) := by
  match h with
  | @IsTag.braces first items hstart hitems hend =>
    have hpass := hitems.tagBody?_append (depth + 1) first ('}' :: rest)
    have hshape : '{' :: first :: (items ++ ['}']) ++ rest
        = '{' :: first :: (items ++ '}' :: rest) := by simp
    rw [hshape, tagBody?_open _ _ hstart, hpass, tagBody?_close _ _ hend]
    simp [Function.comp_def]

/-- The matcher passes over items, the last character of which it then has before it. -/
theorem IsTagItems.tagBody?_append {items : List Char} (h : IsTagItems items) (depth : Nat)
    (last : Char) (rest : List Char) :
    tagBody? depth last (items ++ rest)
      = (tagBody? depth (items.getLastD last) rest).map
          fun (body, after) => (items ++ body, after) := by
  match h with
  | .nil => simp
  | @IsTagItems.char c items hopen hclose hitems =>
    rw [List.cons_append, tagBody?_cons_of_ne _ _ hopen hclose, hitems.tagBody?_append depth c rest,
      List.getLastD_cons]
    simp [Function.comp_def]
  | @IsTagItems.tag t items ht hitems =>
    rw [List.append_assoc, ht.tagBody?_append depth last (items ++ rest),
      hitems.tagBody?_append depth '}' rest, getLastD_tag_append ht]
    simp [Function.comp_def]

end

/-! ## What is accepted is a tag -/

/-- Braces are closed from the inside: what is left of the text when the inner ones are closed is
    read for the outer ones. -/
theorem tagBody?_succ (depth outer : Nat) (last : Char) (s : List Char) :
    tagBody? (depth + 1 + outer) last s
      = (tagBody? depth last s).bind fun (body, after) =>
          (tagBody? outer '}' after).map fun (more, rest) => (body ++ '}' :: more, rest) := by
  induction s generalizing depth last with
  | nil => rfl
  | cons c s ih =>
    have hdeeper : depth + 1 + outer + 1 = depth + 1 + 1 + outer := by omega
    -- a brace that opens needs one more to close, one that closes needs one less
    by_cases hopen : c = '{'
    · subst hopen
      rw [tagBody?.eq_def, tagBody?.eq_def depth]
      simp only [↓reduceIte, hdeeper, ih]
      split
      · simp [Option.map_bind, Option.bind_map, Function.comp_def]
      · rfl
    by_cases hclose : c = '}'
    · subst hclose
      by_cases hlast : isTagEnd last
      · cases depth with
        | zero =>
          rw [Nat.zero_add, Nat.add_comm, tagBody?_close _ _ hlast, tagBody?.eq_def 0]
          simp [hlast]
        | succ depth =>
          have hshallower : depth + 1 + 1 + outer = depth + 1 + outer + 1 := by omega
          rw [hshallower, tagBody?_close _ _ hlast, tagBody?_close _ _ hlast, ih]
          simp [Option.map_bind, Option.bind_map, Function.comp_def]
      · rw [tagBody?.eq_def, tagBody?.eq_def depth]
        simp [hlast]
    · rw [tagBody?_cons_of_ne _ _ hopen hclose, tagBody?_cons_of_ne _ _ hopen hclose, ih]
      simp [Option.map_bind, Option.bind_map, Function.comp_def]

/-- The first item of a sequence that starts with no brace is its first character. -/
theorem IsTagItems.of_cons {c : Char} {items : List Char} (h : IsTagItems (c :: items))
    (hc : c ≠ '{') : IsTagItems items := by
  generalize heq : c :: items = all at h
  match h with
  | .nil => cases heq
  | .char _ _ hitems =>
    cases heq
    exact hitems
  | .tag ht hitems =>
    obtain @⟨first, inner, -, -, -⟩ := ht
    cases heq
    exact absurd rfl hc

/-- What stands in the braces of a tag, if its first and its last character can stand there. -/
theorem isTag_of_items {body : List Char} (hstart : ∃ c ∈ body.head?, isTagStart c)
    (hitems : IsTagItems body) (hend : isTagEnd (body.getLastD '{')) :
    IsTag ('{' :: (body ++ ['}'])) := by
  obtain ⟨first, hfirst, hstart⟩ := hstart
  obtain ⟨items, rfl⟩ := List.head?_eq_some_iff.1 hfirst
  rw [List.getLastD_cons] at hend
  exact .braces hstart (hitems.of_cons (ne_brace_of_isTagStart hstart).1) hend

/-- What starts in front of a closing brace starts before it. -/
theorem exists_start_of_append {body after : List Char}
    (h : ((body ++ '}' :: after).head?.map isTagStart).getD false) :
    ∃ c ∈ body.head?, isTagStart c := by
  cases body with
  | nil => exact absurd h (by simp [isTagStart])
  | cons first items => exact ⟨first, rfl, by simpa using h⟩

/-- How a matcher gets on from one item to the next: it has come to the closing brace, or a
    character stands there, or a tag that is read first. -/
inductive ReadsItem (last : Char) : List Char → List Char → List Char → Prop where
  | close {rest : List Char} : isTagEnd last → ReadsItem last ('}' :: rest) [] rest
  | char {c : Char} {rest body after : List Char} : c ≠ '{' → c ≠ '}' →
    tagBody? 0 c rest = some (body, after) → ReadsItem last (c :: rest) (c :: body) after
  | tag {inner rest body after : List Char} : (∃ c ∈ inner.head?, isTagStart c) →
    tagBody? 0 '{' (inner ++ '}' :: rest) = some (inner, rest) →
    tagBody? 0 '}' rest = some (body, after) →
    ReadsItem last ('{' :: (inner ++ '}' :: rest)) ('{' :: (inner ++ '}' :: body)) after

theorem readsItem_of_tagBody? {last : Char} {s body after : List Char}
    (h : tagBody? 0 last s = some (body, after)) : ReadsItem last s body after := by
  cases s with
  | nil => cases h
  | cons c rest =>
    rw [tagBody?.eq_def] at h
    by_cases hopen : c = '{'
    · subst hopen
      simp only [↓reduceIte] at h
      split at h
      · rename_i hstart
        obtain ⟨⟨long, after'⟩, hlong, heq⟩ := Option.map_eq_some_iff.1 h
        cases heq
        -- the tag is closed first, then what stands around it
        rw [tagBody?_succ 0 0, Option.bind_eq_some_iff] at hlong
        obtain ⟨⟨inner, mid⟩, hinner, hmore⟩ := hlong
        obtain ⟨⟨more, after'⟩, hmore, heq⟩ := Option.map_eq_some_iff.1 hmore
        cases heq
        obtain rfl := eq_of_tagBody? hinner
        exact .tag (exists_start_of_append hstart) hinner hmore
      · cases h
    · by_cases hclose : c = '}'
      · subst hclose
        by_cases hlast : isTagEnd last
        · simp [hlast] at h
          obtain ⟨rfl, rfl⟩ := h
          exact .close hlast
        · simp [hlast] at h
      · simp only [if_neg hopen, if_neg hclose] at h
        obtain ⟨⟨short, after'⟩, hshort, heq⟩ := Option.map_eq_some_iff.1 h
        cases heq
        exact .char hopen hclose hshort

/-- What is read up to the closing brace of a tag is a sequence of items, and its last character can
    stand in front of the brace. -/
theorem isTagItems_of_tagBody? {last : Char} {s body after : List Char}
    (h : tagBody? 0 last s = some (body, after)) :
    IsTagItems body ∧ isTagEnd (body.getLastD last) := by
  -- by induction on the length, for a tag is read from its opening brace, and what follows it again
  match s, body, after, readsItem_of_tagBody? h with
  | _, _, _, .close hlast => exact ⟨.nil, hlast⟩
  | _, _, _, .char hopen hclose hrest =>
    obtain ⟨hitems, hend⟩ := isTagItems_of_tagBody? hrest
    rw [List.getLastD_cons]
    exact ⟨.char hopen hclose hitems, hend⟩
  | _, _, _, @ReadsItem.tag _ inner rest more _ hstart hinner hmore =>
    obtain ⟨hitems, hend⟩ := isTagItems_of_tagBody? hinner
    obtain ⟨hmoreItems, hmoreEnd⟩ := isTagItems_of_tagBody? hmore
    have htag := isTag_of_items hstart hitems hend
    have hshape : '{' :: (inner ++ '}' :: more) = '{' :: (inner ++ ['}']) ++ more := by simp
    rw [hshape, getLastD_tag_append htag]
    exact ⟨.tag htag hmoreItems, hmoreEnd⟩
termination_by s.length
decreasing_by
  all_goals simp
  all_goals omega

/-! ## Tags in a text -/

/-- A tag in front of anything is found, and nothing but a tag. -/
theorem tag?_eq_some_iff {s body after : List Char} :
    tag? s = some (body, after)
      ↔ IsTag ('{' :: (body ++ ['}'])) ∧ s = '{' :: (body ++ '}' :: after) := by
  constructor
  · intro h
    refine ⟨?_, eq_of_tag? h⟩
    unfold tag? at h
    split at h
    · rename_i rest
      split at h
      · rename_i hstart
        obtain ⟨hitems, hend⟩ := isTagItems_of_tagBody? h
        rw [eq_of_tagBody? h] at hstart
        exact isTag_of_items (exists_start_of_append hstart) hitems hend
      · cases h
    · cases h
  · rintro ⟨htag, rfl⟩
    generalize hshape : '{' :: (body ++ ['}']) = t at htag
    obtain @⟨first, items, hstart, hitems, hend⟩ := htag
    -- the braces around the tag are the ones around its items
    obtain rfl : body = first :: items := by
      have hsame : body ++ ['}'] = first :: items ++ ['}'] := (List.cons.inj hshape).2
      exact List.append_cancel_right hsame
    have hfirst := ne_brace_of_isTagStart hstart
    have hpass := hitems.tagBody?_append 0 first ('}' :: after)
    have hclose : tagBody? 0 (items.getLastD first) ('}' :: after) = some ([], after) := by
      rw [tagBody?.eq_def]
      simp only [hend, ↓reduceIte, if_neg (by decide : '}' ≠ '{')]
    rw [tag?, if_pos (by simpa using hstart), List.cons_append,
      tagBody?_cons_of_ne _ _ hfirst.1 hfirst.2, hpass, hclose]
    simp

/-- Whether there is a tag in a text from one position up to another. -/
def IsTagAt (text : List Char) (start stop : Nat) : Prop :=
  stop ≤ text.length ∧ IsTag (slice text start stop)

theorem tagEnd?_eq_some_iff {text : List Char} {start stop : Nat} :
    tagEnd? text start = some stop ↔ IsTagAt text start stop := by
  rw [tagEnd?, Option.map_eq_some_iff, IsTagAt]
  constructor
  · rintro ⟨⟨body, after⟩, htag, rfl⟩
    obtain ⟨htag, hdrop⟩ := tag?_eq_some_iff.1 htag
    have hlength := congrArg List.length hdrop
    simp only [List.length_drop, List.length_cons, List.length_append] at hlength
    -- what is behind the tag tells how long it is
    have hslice : slice text start (text.length - after.length) = '{' :: (body ++ ['}']) := by
      have hsize : text.length - after.length - start = ('{' :: (body ++ ['}'])).length := by
        simp
        omega
      have hshape : '{' :: (body ++ '}' :: after) = '{' :: (body ++ ['}']) ++ after := by simp
      rw [slice, hsize, hdrop, hshape, List.take_left]
    rw [hslice]
    exact ⟨Nat.sub_le _ _, htag⟩
  · rintro ⟨hstop, htag⟩
    generalize hslice : slice text start stop = t at htag
    obtain @⟨first, items, hstart, hitems, hend⟩ := htag
    have hlt : start < stop := by
      have := congrArg List.length hslice
      simp [slice] at this
      omega
    have hdrop : text.drop start = '{' :: (first :: items ++ '}' :: text.drop stop) := by
      rw [← slice_append_drop (Nat.le_of_lt hlt), hslice]
      simp
    refine ⟨(first :: items, text.drop stop), ?_, ?_⟩
    · rw [tag?_eq_some_iff]
      exact ⟨.braces hstart hitems hend, hdrop⟩
    · simp
      omega

end BlockTemplate
