import BlockTemplate.Proofs.Tag.Grammar
import BlockTemplate.Tag.Depth
import Mathlib

/-!
# Tags that nest too deep

Only so many tags can be open at once. The reader gives up where a brace is opened with as many tags
open, whatever follows; and everywhere else it tells exactly where a tag ends, or that there is
none.

## Key results

- `overflows_iff_isTooDeep`: where the reader gives up
- `readTagEnd_tells_tags`: what the reader tells about every position of every text
-/

namespace BlockTemplate

/-! ## Open tags -/

/-- A text that opens tags, each within the one before it, and leaves that many of them open. -/
inductive OpensTags : Nat → List Char → Prop where
  | none : OpensTags 0 []
  | tag {count : Nat} {opening : List Char} {first : Char} {items : List Char} :
    OpensTags count opening → isTagStart first → IsTagItems items →
    OpensTags (count + 1) (opening ++ '{' :: first :: items)

/-- Whether a brace is opened with as many tags open as there can be. -/
def IsTooDeep (s : List Char) : Prop :=
  ∃ opening rest, s = opening ++ '{' :: rest ∧ OpensTags mostOpenTags opening

section
variable (opened : Nat) (last : Char)

theorem overflowsFrom_cons_of_ne {c : Char} (hopen : c ≠ '{') (hclose : c ≠ '}')
    (rest : List Char) : overflowsFrom opened last (c :: rest) = overflowsFrom opened c rest := by
  rw [overflowsFrom.eq_def]
  simp only [if_neg hopen, if_neg hclose]

theorem overflowsFrom_open {first : Char} (h : isTagStart first) (rest : List Char) :
    overflowsFrom opened last ('{' :: first :: rest)
      = (decide (mostOpenTags ≤ opened + 1) || overflowsFrom (opened + 1) first rest) := by
  have hfirst := ne_brace_of_isTagStart h
  rw [overflowsFrom.eq_def]
  simp [h, overflowsFrom_cons_of_ne _ _ hfirst.1 hfirst.2]

theorem overflowsFrom_close (h : isTagEnd last) (rest : List Char) :
    overflowsFrom (opened + 1) last ('}' :: rest) = overflowsFrom opened '}' rest := by
  rw [overflowsFrom.eq_def]
  simp [h]

end

mutual

/-- What overflows behind a tag overflows, too. -/
theorem IsTag.overflowsFrom_append {t : List Char} (h : IsTag t) {opened : Nat} (last : Char)
    {rest : List Char} (hrest : overflowsFrom opened '}' rest) :
    overflowsFrom opened last (t ++ rest) := by
  match h with
  | @IsTag.braces first items hstart hitems hend =>
    have hshape : '{' :: first :: (items ++ ['}']) ++ rest
        = '{' :: first :: (items ++ '}' :: rest) := by simp
    have hclose : overflowsFrom (opened + 1) (items.getLastD first) ('}' :: rest) := by
      rw [overflowsFrom_close _ _ hend, hrest]
    rw [hshape, overflowsFrom_open _ _ hstart, Bool.or_eq_true]
    exact .inr (hitems.overflowsFrom_append first hclose)

theorem IsTagItems.overflowsFrom_append {items : List Char} (h : IsTagItems items) {opened : Nat}
    (last : Char) {rest : List Char} (hrest : overflowsFrom opened (items.getLastD last) rest) :
    overflowsFrom opened last (items ++ rest) := by
  match h with
  | .nil => exact hrest
  | @IsTagItems.char c items hopen hclose hitems =>
    rw [List.getLastD_cons] at hrest
    rw [List.cons_append, overflowsFrom_cons_of_ne _ _ hopen hclose]
    exact hitems.overflowsFrom_append c hrest
  | @IsTagItems.tag t items ht hitems =>
    rw [getLastD_tag_append ht] at hrest
    rw [List.append_assoc]
    exact ht.overflowsFrom_append last (hitems.overflowsFrom_append '}' hrest)

end

/-- What overflows behind open tags overflows. -/
theorem OpensTags.overflows_append {count : Nat} {opening rest : List Char}
    (h : OpensTags (count + 1) opening)
    (hrest : ∀ last, overflowsFrom count last ('{' :: rest)) :
    overflows (opening ++ '{' :: rest) := by
  induction count generalizing opening rest with
  | zero =>
    cases h with
    | @tag _ outer first items hnone hstart hitems =>
      cases hnone
      have hfirst := ne_brace_of_isTagStart hstart
      have hover := hitems.overflowsFrom_append first (hrest _)
      simpa [overflows, hstart, overflowsFrom_cons_of_ne _ _ hfirst.1 hfirst.2] using hover
  | succ count ih =>
    cases h with
    | @tag _ outer first items houter hstart hitems =>
      rw [List.append_assoc, List.cons_append, List.cons_append]
      refine ih houter fun last => ?_
      rw [overflowsFrom_open _ _ hstart, Bool.or_eq_true]
      exact .inr (hitems.overflowsFrom_append first (hrest _))

theorem IsTagItems.append {items more : List Char} (h : IsTagItems items)
    (hmore : IsTagItems more) :
    IsTagItems (items ++ more) := by
  refine @IsTagItems.rec (fun _ _ => True) (fun items _ => IsTagItems (items ++ more))
    (fun _ _ _ _ => trivial) hmore ?_ ?_ items h
  · intro c items hopen hclose _ ih
    exact .char hopen hclose ih
  · intro t items ht _ _ ih
    rw [List.append_assoc]
    exact .tag ht ih

/-- In the innermost tag another item can follow. -/
theorem OpensTags.append {count : Nat} {opening more : List Char}
    (h : OpensTags (count + 1) opening) (hmore : IsTagItems more) :
    OpensTags (count + 1) (opening ++ more) := by
  cases h with
  | tag houter hstart hitems =>
    rw [List.append_assoc]
    exact .tag houter hstart (hitems.append hmore)

/-- The innermost tag can be closed behind a character that can stand there. -/
theorem OpensTags.close {count : Nat} {opening : List Char} (h : OpensTags (count + 2) opening)
    (hend : isTagEnd (opening.getLastD '{')) : OpensTags (count + 1) (opening ++ ['}']) := by
  cases h with
  | @tag _ outer first items houter hstart hitems =>
    have htag : IsTag ('{' :: first :: (items ++ ['}'])) := by
      refine .braces hstart hitems ?_
      rw [List.getLastD_eq_getLast?, List.getLast?_append] at hend
      rw [List.getLastD_eq_getLast?]
      simpa [List.getLast?_cons] using hend
    have hitem := IsTagItems.tag htag .nil
    rw [List.append_nil] at hitem
    rw [List.append_assoc]
    exact houter.append hitem

/-- A tag that overflows has a first character. -/
theorem exists_first_of_overflowsFrom {opened : Nat} {last : Char} {rest : List Char}
    (hstart : (rest.head?.map isTagStart).getD false) (h : overflowsFrom opened last rest) :
    ∃ first more, rest = first :: more ∧ isTagStart first ∧ overflowsFrom opened first more := by
  cases rest with
  | nil => exact absurd hstart (by decide)
  | cons first more =>
    have hstart : isTagStart first := by simpa using hstart
    have hfirst := ne_brace_of_isTagStart hstart
    rw [overflowsFrom_cons_of_ne _ _ hfirst.1 hfirst.2] at h
    exact ⟨first, more, rfl, hstart, h⟩

/-- Where reading overflows, a brace is opened with as many tags open as there can be. -/
theorem isTooDeep_of_overflowsFrom {opened : Nat} {opening s : List Char}
    (hopening : OpensTags (opened + 1) opening) (hopened : opened < mostOpenTags)
    (h : overflowsFrom opened (opening.getLastD '{') s) : IsTooDeep (opening ++ s) := by
  match s with
  | [] => cases h
  | c :: rest =>
    by_cases hopen : c = '{'
    · subst hopen
      by_cases hmost : mostOpenTags ≤ opened + 1
      · have hcount : opened + 1 = mostOpenTags := by omega
        exact ⟨opening, rest, rfl, hcount ▸ hopening⟩
      · -- one more tag is open behind its first character
        rw [overflowsFrom.eq_def] at h
        simp only [↓reduceIte, hmost, decide_false, Bool.false_or, Bool.and_eq_true] at h
        obtain ⟨first, more, rfl, hstart, hmore⟩ := exists_first_of_overflowsFrom h.1 h.2
        have hshape : opening ++ '{' :: first :: more = opening ++ ['{', first] ++ more := by simp
        rw [hshape]
        refine isTooDeep_of_overflowsFrom (hopening.tag hstart .nil) (by omega) ?_
        rwa [List.append_cons, List.getLastD_concat]
    · by_cases hclose : c = '}'
      · subst hclose
        rw [overflowsFrom.eq_def] at h
        simp only [↓reduceIte, if_neg hopen, Bool.and_eq_true] at h
        obtain ⟨hend, h⟩ := h
        cases opened with
        | zero => cases h
        | succ opened =>
          rw [List.append_cons]
          refine isTooDeep_of_overflowsFrom (hopening.close hend) (by omega) ?_
          rwa [List.getLastD_concat]
      · rw [overflowsFrom_cons_of_ne _ _ hopen hclose] at h
        rw [List.append_cons]
        refine isTooDeep_of_overflowsFrom (hopening.append (.char hopen hclose .nil)) hopened ?_
        rwa [List.getLastD_concat]
termination_by s.length

/-- Too many tags are opened exactly if a brace is opened with as many tags open as there can be. -/
theorem overflows_iff_isTooDeep (s : List Char) : overflows s ↔ IsTooDeep s := by
  constructor
  · intro h
    unfold overflows at h
    split at h
    · rw [Bool.and_eq_true] at h
      obtain ⟨first, more, rfl, hstart, hmore⟩ := exists_first_of_overflowsFrom h.1 h.2
      exact isTooDeep_of_overflowsFrom (OpensTags.none.tag hstart .nil) (by decide) hmore
    · cases h
  · rintro ⟨opening, rest, rfl, hopening⟩
    have hcount : mostOpenTags = mostOpenTags - 1 + 1 := rfl
    rw [hcount] at hopening
    refine hopening.overflows_append fun last => ?_
    rw [overflowsFrom.eq_def]
    simp [mostOpenTags]

/-! ## Reading tags -/

/-- Unless tags nest too deep, the reader tells the end of the tag at a position, or that there is
    no tag. A tag has only one end. -/
theorem readTagEnd_tells_tags (text : List Char) (start : Nat) :
    (∀ stop, readTagEnd text start = .ok (some stop)
        ↔ ¬ IsTooDeep (text.drop start) ∧ IsTagAt text start stop)
      ∧ (readTagEnd text start = .ok none
        ↔ ¬ IsTooDeep (text.drop start) ∧ ∀ stop, ¬ IsTagAt text start stop)
      ∧ (readTagEnd text start = .error .tags ↔ IsTooDeep (text.drop start))
      ∧ ∀ stop stop', IsTagAt text start stop → IsTagAt text start stop' → stop = stop' := by
  have hunique (stop stop' : Nat) (h : IsTagAt text start stop) (h' : IsTagAt text start stop') :
      stop = stop' := by
    rw [← tagEnd?_eq_some_iff] at h h'
    exact Option.some.inj (h.symm.trans h')
  rw [← overflows_iff_isTooDeep, readTagEnd]
  by_cases hdeep : overflows (text.drop start)
  · simpa [hdeep] using hunique
  · refine ⟨fun stop => ?_, ?_, by simp [hdeep], hunique⟩
    · simp [hdeep, tagEnd?_eq_some_iff]
    · simp [hdeep, Option.eq_none_iff_forall_ne_some, tagEnd?_eq_some_iff]

/-- A tag with another one in it, which is an argument of a call. -/
def nestedTag : List Char := "x \x7bA|f(\x7bB\x7d, 'x')\x7d y".toList

theorem readTagEnd_tells_tags_of_nested :
    readTagEnd nestedTag 2 = .ok (some 17) ∧ IsTagAt nestedTag 2 17
      ∧ ∀ stop, IsTagAt nestedTag 2 stop → stop = 17 := by
  have hread : readTagEnd nestedTag 2 = .ok (some 17) := by cbv
  obtain ⟨hsome, -, -, hunique⟩ := readTagEnd_tells_tags nestedTag 2
  have hat : IsTagAt nestedTag 2 17 := ((hsome 17).1 hread).2
  exact ⟨hread, hat, fun stop hstop => hunique stop 17 hstop hat⟩

/-- The beginnings of tags, each within the one before it. -/
def openTags (count : Nat) : List Char := (List.replicate count ['{', 'A']).flatten

theorem openTags_succ (count : Nat) : openTags (count + 1) = '{' :: 'A' :: openTags count := rfl

theorem openTags_add (count more : Nat) :
    openTags (count + more) = openTags count ++ openTags more := by
  rw [openTags, List.replicate_add, List.flatten_append]
  rfl

theorem opensTags_openTags (count : Nat) : OpensTags count (openTags count) := by
  induction count with
  | zero => exact .none
  | succ count ih =>
    rw [openTags_add]
    exact ih.tag (by decide) .nil

theorem closeBrace_not_mem_openTags (count : Nat) : '}' ∉ openTags count := by
  simp [openTags, List.mem_flatten, List.mem_replicate]

/-- Too many beginnings of tags are not read. -/
theorem overflows_openTags {count : Nat} (h : mostOpenTags < count) :
    overflows (openTags count) := by
  obtain ⟨more, rfl⟩ : ∃ more, count = mostOpenTags + (more + 1) :=
    ⟨count - mostOpenTags - 1, by omega⟩
  rw [overflows_iff_isTooDeep, openTags_add, openTags_succ]
  exact ⟨openTags mostOpenTags, 'A' :: openTags more, rfl, opensTags_openTags mostOpenTags⟩

/-- Of three thousand beginnings of tags the reader does not tell that there is no tag. -/
theorem readTagEnd_ne_of_openTags :
    ¬ (readTagEnd (openTags 3000) 0 = .ok none
      ↔ ∀ stop, ¬ IsTagAt (openTags 3000) 0 stop) := by
  have hdeep : overflows (openTags 3000) := overflows_openTags (by decide)
  intro h
  have hnone := h.2 fun stop hat => ?_
  · rw [readTagEnd, List.drop_zero, if_pos hdeep] at hnone
    cases hnone
  · -- no brace is closed
    have hclose : '}' ∈ slice (openTags 3000) 0 stop := by
      obtain ⟨-, htag⟩ := hat
      generalize slice (openTags 3000) 0 stop = t at htag
      cases htag
      simp
    exact closeBrace_not_mem_openTags 3000 (List.mem_of_mem_drop (List.mem_of_mem_take hclose))

end BlockTemplate
