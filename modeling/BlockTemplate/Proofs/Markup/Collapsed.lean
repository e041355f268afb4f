import BlockTemplate.Proofs.Markup.Cleanup
import BlockTemplate.Proofs.Text.Assembly
import Mathlib

/-!
# The form of a cleaned text

Which characters may stand next to each other in a cleaned text is brought about by one pass of the
cleanup for each of the rules, and kept by the passes behind it: all that they put into a text are
spaces, and where a blank may stand a space may. Only the rule on spaces themselves does not allow
for that, and is kept because no pass behind it puts a space beside another blank.

## Key results

- `isCollapsed_cleanupHtml`: no blanks are left that could be collapsed
- `cleanupHtml_collapses`: and nothing but blanks is changed
-/

namespace BlockTemplate

/-- The characters of a text apart from blanks and the null character. -/
def solidChars (s : List Char) : List Char := s.filter fun c => !isSpacing c

/-- Whether the blanks in a text are collapsed: each run of spaces is a single one, there are no
    other blanks of the kinds that become spaces, and no breaks beside the brackets of tags. -/
structure IsCollapsed (s : List Char) : Prop where
  noTab : '\t' ∉ s
  noFormFeed : '\x0c' ∉ s
  noDoubleSpace : ¬ [' ', ' '] <:+: s
  noBreakBefore : ∀ c, isBreak c → ¬ [c, '<'] <:+: s
  noBreakBehind : ∀ c, isBreak c → ¬ ['>', c] <:+: s

/-! ## Characters apart from blanks -/

theorem solidChars_append (s t : List Char) :
    solidChars (s ++ t) = solidChars s ++ solidChars t := List.filter_append s t

theorem IsGap.solidChars_eq {g : List Char} (hg : IsGap g) : solidChars g = [] :=
  List.filter_eq_nil_iff.2 fun c hc => by simp [hg c hc]

/-- Respacing a text keeps all of its characters apart from blanks, in their order. -/
theorem Respaced.solidChars_eq {rule : GapRule} {next previous : Option Char} {s s' : List Char}
    (hs : Respaced rule next previous s s') : solidChars s' = solidChars s := by
  induction hs with
  | last hg hg' _ => rw [hg.solidChars_eq, hg'.solidChars_eq]
  | @cons _ g g' d s s' hg hg' _ _ _ ih =>
    have hcons (t : List Char) : solidChars (d :: t) = solidChars [d] ++ solidChars t :=
      solidChars_append [d] t
    rw [solidChars_append, solidChars_append, hg.solidChars_eq, hg'.solidChars_eq, hcons s',
      hcons s, ih]

/-! ## What may stand next to what -/

/-- There is no break before an opening bracket. -/
def IsFlatBefore (a b : Char) : Prop := b = '<' → isBreak a = false

/-- There is no break behind a closing bracket. -/
def IsFlatBehind (a b : Char) : Prop := a = '>' → isBreak b = false

/-- There is no space beside a space. -/
def IsSingle (a b : Char) : Prop := a = ' ' → b ≠ ' '

/-- A rule that allows for a space beside any character. -/
structure AllowsSpaces (R : Char → Char → Prop) : Prop where
  before : ∀ b, R ' ' b
  behind : ∀ a, R a ' '

theorem allowsSpaces_isFlatBefore : AllowsSpaces IsFlatBefore where
  before _ _ := by decide
  behind _ h := absurd h (by decide)

theorem allowsSpaces_isFlatBehind : AllowsSpaces IsFlatBehind where
  before _ h := absurd h (by decide)
  behind _ _ := by decide

/-- Two characters next to each other in a text obey its rule. -/
theorem rel_of_neighbours {R : Char → Char → Prop} {s : List Char} (h : s.IsChain R) {a b : Char}
    (hpair : [a, b] <:+: s) : R a b := by
  have hchain := List.IsChain.infix h hpair
  exact List.isChain_pair.1 hchain

/-! ## Brackets -/

theorem head?_collapseBeforeTag {s : List Char} (h : (collapseBeforeTag s).head? = some '<') :
    s.head? = some '<' := by
  induction s with
  | nil => exact h
  | cons c s ih =>
    rw [collapseBeforeTag] at h
    split at h
    · split at h
      · rw [List.head?_cons, Option.some.injEq] at h
        exact absurd h (by decide)
      · rename_i hnext
        exact absurd (by rw [ih h]; rfl) hnext
    · exact h

/-- The first pass over the brackets leaves no break before a tag. -/
theorem isChain_collapseBeforeTag (s : List Char) :
    (collapseBeforeTag s).IsChain IsFlatBefore := by
  induction s with
  | nil => exact .nil
  | cons c s ih =>
    rw [collapseBeforeTag]
    split
    · split
      · exact ih.cons fun b _ => allowsSpaces_isFlatBefore.before b
      · exact ih
    · rename_i hrun
      refine ih.cons fun b hb hbracket => ?_
      -- a break right before a bracket would have been collapsed
      rw [hbracket] at hb
      rw [Bool.eq_false_iff]
      intro hc
      obtain ⟨t, rfl⟩ := List.head?_eq_some_iff.1 (head?_collapseBeforeTag hb)
      exact hrun (by rw [hc]; rfl)

theorem head?_dropAfterTag {s : List Char} : (dropAfterTag false s).head? = s.head? := by
  cases s with
  | nil => rfl
  | cons c s => rfl

theorem isBreak_of_head?_dropAfterTag {s : List Char} :
    ∀ b ∈ (dropAfterTag true s).head?, isBreak b = false := by
  induction s with
  | nil => exact fun _ h => nomatch h
  | cons c s ih =>
    rw [dropAfterTag]
    split
    · exact ih
    · rename_i hc
      rintro b ⟨⟩
      simpa using hc

/-- The second pass over the brackets keeps breaks away from where the first one has removed
    them. -/
theorem isChain_dropAfterTag_of_isFlatBefore {s : List Char} (h : s.IsChain IsFlatBefore)
    (after : Bool) : (dropAfterTag after s).IsChain IsFlatBefore := by
  induction s generalizing after with
  | nil => exact .nil
  | cons c s ih =>
    rw [List.isChain_cons] at h
    rw [dropAfterTag]
    split
    · exact ih h.2 true
    · refine (ih h.2 _).cons fun b hb => ?_
      by_cases hc : c = '>'
      · rw [hc]
        exact fun _ => by decide
      · rw [beq_false_of_ne hc, head?_dropAfterTag] at hb
        exact h.1 b hb

/-- The second pass over the brackets leaves no break behind a tag. -/
theorem isChain_dropAfterTag (s : List Char) (after : Bool) :
    (dropAfterTag after s).IsChain IsFlatBehind := by
  induction s generalizing after with
  | nil => exact .nil
  | cons c s ih =>
    rw [dropAfterTag]
    split
    · exact ih true
    · refine (ih _).cons fun b hb hc => ?_
      rw [hc] at hb
      exact isBreak_of_head?_dropAfterTag b hb

/-! ## Runs of blanks -/

section
variable {p : Char → Bool} {R : Char → Char → Prop}

/-- Collapsing runs puts nothing but spaces into a text, and leaves nothing of the runs. -/
theorem mem_collapseRuns {s : List Char} {inRun : Bool} {c : Char}
    (h : c ∈ collapseRuns p inRun s) : c = ' ' ∨ (c ∈ s ∧ p c = false) := by
  induction s generalizing inRun with
  | nil => exact nomatch h
  | cons d s ih =>
    have hrest {inRun : Bool} (h : c ∈ collapseRuns p inRun s) :
        c = ' ' ∨ (c ∈ d :: s ∧ p c = false) :=
      (ih h).imp_right fun ⟨hc, hp⟩ => ⟨List.mem_cons_of_mem _ hc, hp⟩
    rw [collapseRuns] at h
    split at h
    · split at h
      · exact hrest h
      · rcases List.mem_cons.1 h with rfl | h
        · exact .inl rfl
        · exact hrest h
    · rename_i hd
      rcases List.mem_cons.1 h with rfl | h
      · exact .inr ⟨List.mem_cons_self, by simpa using hd⟩
      · exact hrest h

theorem head?_collapseRuns {s : List Char} :
    ∀ b ∈ (collapseRuns p false s).head?, b = ' ' ∨ b ∈ s.head? := by
  cases s with
  | nil => exact fun _ h => nomatch h
  | cons c s =>
    rw [collapseRuns]
    split
    · rintro b ⟨⟩
      exact .inl rfl
    · rintro b ⟨⟩
      exact .inr rfl

/-- Collapsing runs keeps a rule that allows for spaces. -/
theorem isChain_collapseRuns (hR : AllowsSpaces R) {s : List Char} (h : s.IsChain R)
    (inRun : Bool) : (collapseRuns p inRun s).IsChain R := by
  induction s generalizing inRun with
  | nil => exact .nil
  | cons c s ih =>
    rw [List.isChain_cons] at h
    rw [collapseRuns]
    split
    · split
      · exact ih h.2 true
      · exact (ih h.2 true).cons fun b _ => hR.before b
    · refine (ih h.2 false).cons fun b hb => ?_
      rcases head?_collapseRuns b hb with rfl | hb
      · exact hR.behind c
      · exact h.1 b hb

/-- Where spaces belong to the runs, there is none behind a run. -/
theorem space_not_mem_head?_collapseRuns (hspace : p ' ' = true) (s : List Char) :
    ' ' ∉ (collapseRuns p true s).head? := by
  induction s with
  | nil => exact fun h => nomatch h
  | cons c s ih =>
    rw [collapseRuns]
    split
    · exact ih
    · rename_i hc
      rintro ⟨⟩
      exact hc hspace

/-- Where spaces belong to the runs, collapsing leaves no two of them next to each other. -/
theorem isChain_isSingle_collapseRuns (hspace : p ' ' = true) (s : List Char) (inRun : Bool) :
    (collapseRuns p inRun s).IsChain IsSingle := by
  induction s generalizing inRun with
  | nil => exact .nil
  | cons c s ih =>
    rw [collapseRuns]
    split
    · split
      · exact ih true
      · refine (ih true).cons fun b hb _ hb' => ?_
        rw [hb'] at hb
        exact space_not_mem_head?_collapseRuns hspace s hb
    · rename_i hc
      refine (ih false).cons fun b _ hc' => ?_
      rw [hc'] at hc
      exact absurd hspace hc

/-- A character that belongs to no run stays between the texts before it and behind it. -/
theorem collapseRuns_append_cons {c : Char} (hc : p c = false) (s t : List Char) (inRun : Bool) :
    collapseRuns p inRun (s ++ c :: t)
      = collapseRuns p inRun s ++ c :: collapseRuns p false t := by
  induction s generalizing inRun with
  | nil => simp [collapseRuns, hc]
  | cons d s ih =>
    rw [List.cons_append, collapseRuns, collapseRuns]
    split
    · split
      · exact ih true
      · rw [ih true, List.cons_append]
    · rw [ih false, List.cons_append]

end

/-! ## Tags -/

/-- The pass over the tags: what it puts into a text, and what it keeps. -/
theorem mem_replaceFound_htmlTag? {s : List Char} {c : Char}
    (h : c ∈ replaceFound htmlTag? (collapseRuns isBlank false) s) : c = ' ' ∨ c ∈ s := by
  induction s using scan_induction htmlTag? with
  | nil => simp at h
  | kept d rest hnothing ih =>
    rw [replaceFound_of_findsNothing _ hnothing] at h
    rcases List.mem_cons.1 h with rfl | h
    · exact .inr List.mem_cons_self
    · exact (ih h).imp_right (List.mem_cons_of_mem d)
  | found s tag after hfinds ih =>
    obtain ⟨inner, -, rfl⟩ := exists_of_htmlTag? hfinds.1
    rw [replaceFound_of_finds _ hfinds] at h
    rcases List.mem_append.1 h with h | h
    · exact (mem_collapseRuns h).imp_right fun hc => List.mem_append_left _ hc.1
    · exact (ih h).imp_right (List.mem_append_right tag)

/-- A rule that the texts of tags go on to obey is obeyed by the whole text, for the brackets at
    both ends of a tag stay. -/
theorem isChain_replaceFound_htmlTag? {R : Char → Char → Prop}
    (htags : ∀ tag : List Char, tag.IsChain R → (collapseRuns isBlank false tag).IsChain R)
    {s : List Char} (h : s.IsChain R) :
    (replaceFound htmlTag? (collapseRuns isBlank false) s).IsChain R
      ∧ (replaceFound htmlTag? (collapseRuns isBlank false) s).head? = s.head? := by
  induction s using scan_induction htmlTag? with
  | nil => simp
  | kept c rest hnothing ih =>
    rw [List.isChain_cons] at h
    obtain ⟨hrest, hhead⟩ := ih h.2
    rw [replaceFound_of_findsNothing _ hnothing]
    refine ⟨hrest.cons ?_, rfl⟩
    rw [hhead]
    exact h.1
  | found s tag after hfinds ih =>
    obtain ⟨inner, htag, rfl⟩ := exists_of_htmlTag? hfinds.1
    obtain ⟨hbefore, hafter, hmeet⟩ := List.isChain_append.1 h
    obtain ⟨hrest, hhead⟩ := ih hafter
    -- a tag keeps its brackets, so that its neighbours meet the same characters as before
    have hcollapsed : collapseRuns isBlank false tag
        = '<' :: collapseRuns isBlank false inner ++ ['>'] := by
      rw [htag]
      exact congrArg ('<' :: ·) (collapseRuns_append_cons (by decide) inner [] false)
    rw [replaceFound_of_finds _ hfinds]
    refine ⟨List.isChain_append.2 ⟨htags tag hbefore, hrest, ?_⟩, ?_⟩
    · rw [hhead, hcollapsed, List.getLast?_concat]
      rwa [htag, List.getLast?_concat] at hmeet
    · rw [hcollapsed, htag]
      rfl

/-! ## All passes -/

/-- Tabs and form feeds, which become spaces wherever they are. -/
def becomesSpace (c : Char) : Bool := c == '\t' || c == '\x0c'

/-- The passes behind those over the brackets. -/
def collapseBlanks (s : List Char) : List Char :=
  replaceFound htmlTag? (collapseRuns isBlank false)
    (collapseRuns (· == ' ') false (collapseRuns becomesSpace false s))

theorem cleanupHtml_eq_collapseBlanks (s : List Char) :
    cleanupHtml s = collapseBlanks (dropAfterTag false (collapseBeforeTag (trimLines s))) := rfl

/-- No tab and no form feed is left. -/
theorem becomesSpace_of_mem_collapseBlanks {s : List Char} {c : Char} (h : c ∈ collapseBlanks s) :
    becomesSpace c = false := by
  have hspace : becomesSpace ' ' = false := by decide
  rcases mem_replaceFound_htmlTag? h with rfl | h
  · exact hspace
  rcases mem_collapseRuns h with rfl | ⟨h, -⟩
  · exact hspace
  rcases mem_collapseRuns h with rfl | ⟨-, hc⟩
  · exact hspace
  · exact hc

/-- A rule that allows for spaces is kept. -/
theorem isChain_collapseBlanks {R : Char → Char → Prop} (hR : AllowsSpaces R) {s : List Char}
    (h : s.IsChain R) : (collapseBlanks s).IsChain R :=
  (isChain_replaceFound_htmlTag? (fun _ htag => isChain_collapseRuns hR htag false)
    (isChain_collapseRuns hR (isChain_collapseRuns hR h false) false)).1

/-- No two spaces are left next to each other. -/
theorem isChain_isSingle_collapseBlanks (s : List Char) :
    (collapseBlanks s).IsChain IsSingle :=
  (isChain_replaceFound_htmlTag?
    (fun tag _ => isChain_isSingle_collapseRuns (by decide) tag false)
    (isChain_isSingle_collapseRuns (by decide) _ false)).1

/-- A cleaned text is collapsed. -/
theorem isCollapsed_cleanupHtml (s : List Char) : IsCollapsed (cleanupHtml s) := by
  rw [cleanupHtml_eq_collapseBlanks]
  have hbefore := isChain_collapseBlanks allowsSpaces_isFlatBefore
    (isChain_dropAfterTag_of_isFlatBefore (isChain_collapseBeforeTag (trimLines s)) false)
  have hbehind := isChain_collapseBlanks allowsSpaces_isFlatBehind
    (isChain_dropAfterTag (collapseBeforeTag (trimLines s)) false)
  generalize dropAfterTag false (collapseBeforeTag (trimLines s)) = flat at hbefore hbehind
  refine ⟨fun htab => ?_, fun hfeed => ?_, fun hdouble => ?_, fun c hc hpair => ?_,
    fun c hc hpair => ?_⟩
  · exact nomatch becomesSpace_of_mem_collapseBlanks htab
  · exact nomatch becomesSpace_of_mem_collapseBlanks hfeed
  · exact rel_of_neighbours (isChain_isSingle_collapseBlanks flat) hdouble rfl rfl
  · rw [rel_of_neighbours hbefore hpair rfl] at hc
    exact nomatch hc
  · rw [rel_of_neighbours hbehind hpair rfl] at hc
    exact nomatch hc

/-- Cleaning up a text collapses the blanks in it, and changes nothing but blanks. -/
theorem cleanupHtml_collapses (s : List Char) :
    solidChars (cleanupHtml s) = solidChars s ∧ IsCollapsed (cleanupHtml s) :=
  ⟨(respaced_cleanupHtml s).solidChars_eq, isCollapsed_cleanupHtml s⟩

end BlockTemplate
