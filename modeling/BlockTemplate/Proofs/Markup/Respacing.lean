import Mathlib
import BlockTemplate.Markup.Cleanup
import BlockTemplate.Markup.Line
import BlockTemplate.Proofs.Text.Pattern

/-!
# Texts that differ in their gaps

A gap is a run of blanks. Two texts are respaced versions of each other if they have the same
characters apart from gaps, and gaps in the same places as a rule has it. A rule looks at the
characters around a gap, of which there may be none at the edges of a text.

## Key results

- `Respaced.trans`: respacing twice
- `Respaced.take`, `Respaced.drop`, `Respaced.slice`: pieces between corresponding positions
-/

namespace BlockTemplate

/-- Blanks, and the null character, which is trimmed from lines as blanks are. -/
def isSpacing (c : Char) : Bool := isBlank c || c == '\x00'

/-- Whether there is nothing but blanks in a text. -/
def IsGap (g : List Char) : Prop := ∀ c ∈ g, isSpacing c

/-- Whether there are no blanks in a text. -/
def isSolid (s : List Char) : Bool := s.all fun c => !isSpacing c

/-- A rule tells what a gap may be replaced with, given the characters before it and behind it,
    which there are unless the gap is at the edge of the text. -/
abbrev GapRule := Option Char → Option Char → List Char → List Char → Prop

/-- Whether a text becomes another one by replacing its gaps as a rule allows, with the given
    characters before and behind the text. -/
inductive Respaced (rule : GapRule) (next : Option Char) :
    Option Char → List Char → List Char → Prop where
  | last {previous : Option Char} {g g' : List Char} (hg : IsGap g) (hg' : IsGap g')
      (hrule : rule previous next g g') : Respaced rule next previous g g'
  | cons {previous : Option Char} {g g' : List Char} {d : Char} {s s' : List Char} (hg : IsGap g)
      (hg' : IsGap g') (hd : isSpacing d = false) (hrule : rule previous (some d) g g')
      (hs : Respaced rule next (some d) s s') :
      Respaced rule next previous (g ++ d :: s) (g' ++ d :: s')

/-! ## Gaps -/

theorem isGap_nil : IsGap [] := List.forall_mem_nil _

theorem isGap_cons {c : Char} {g : List Char} : IsGap (c :: g) ↔ isSpacing c ∧ IsGap g :=
  List.forall_mem_cons

theorem isGap_append {g h : List Char} : IsGap (g ++ h) ↔ IsGap g ∧ IsGap h :=
  List.forall_mem_append

theorem IsGap.of_subset {g h : List Char} (hg : IsGap g) (hsub : h ⊆ g) : IsGap h :=
  fun c hc => hg c (hsub hc)

theorem isSolid_cons {c : Char} {s : List Char} :
    isSolid (c :: s) ↔ isSpacing c = false ∧ isSolid s := by
  rw [isSolid, isSolid, List.all_cons, Bool.and_eq_true, Bool.not_eq_true']

theorem isSpacing_of_isBlank {c : Char} (h : isBlank c) : isSpacing c := by
  rw [isSpacing, h, Bool.true_or]

theorem isSpacing_of_isMargin {c : Char} (h : isMargin c) : isSpacing c := by
  simp only [isMargin, Bool.or_eq_true, beq_iff_eq] at h
  rcases h with ((((rfl | rfl) | rfl) | rfl) | rfl) | rfl <;> decide

theorem isSpacing_of_isBreak {c : Char} (h : isBreak c) : isSpacing c := by
  simp only [isBreak, Bool.or_eq_true, beq_iff_eq] at h
  rcases h with (rfl | rfl) | rfl <;> decide

theorem isSpacing_of_isIndent {c : Char} (h : isIndent c) : isSpacing c := by
  simp only [isIndent, Bool.or_eq_true, beq_iff_eq] at h
  rcases h with rfl | rfl <;> decide

theorem isSpacing_of_isLineEnd {c : Char} (h : isLineEnd c) : isSpacing c := by
  simp only [isLineEnd, Bool.or_eq_true, beq_iff_eq] at h
  rcases h with rfl | rfl <;> decide

theorem isSpacing_eq_false_of_isWord {c : Char} (h : isWord c) : isSpacing c = false := by
  rw [isSpacing, isBlank_eq_false_of_isWord h, Bool.false_or, beq_eq_false_iff_ne]
  rintro rfl
  exact absurd h (by decide)

theorem ne_of_isSpacing {c d : Char} (hc : isSpacing c) (hd : isSpacing d = false) : c ≠ d := by
  rintro rfl
  rw [hc] at hd
  exact nomatch hd

theorem not_isGap_append_cons {g s : List Char} {d : Char} (hd : isSpacing d = false) :
    ¬ IsGap (g ++ d :: s) := by
  intro h
  have hspacing := h d (List.mem_append_right _ List.mem_cons_self)
  rw [hd] at hspacing
  exact Bool.false_ne_true hspacing

/-- The gap at the start of a text is determined by the text. -/
theorem gap_append_inj {g h s t : List Char} {c d : Char} (hg : IsGap g) (hh : IsGap h)
    (hc : isSpacing c = false) (hd : isSpacing d = false) (heq : g ++ c :: s = h ++ d :: t) :
    g = h ∧ c = d ∧ s = t := by
  induction g generalizing h with
  | nil =>
    cases h with
    | nil =>
      cases heq
      exact ⟨rfl, rfl, rfl⟩
    | cons x h =>
      cases heq
      exact absurd hh (not_isGap_append_cons (g := []) hc)
  | cons x g ih =>
    cases h with
    | nil =>
      cases heq
      exact absurd hg (not_isGap_append_cons (g := []) hd)
    | cons y h =>
      injection heq with hxy heq
      obtain ⟨rfl, rfl, rfl⟩ := ih (isGap_cons.1 hg).2 (isGap_cons.1 hh).2 heq
      exact ⟨by rw [hxy], rfl, rfl⟩

/-! ## Rules -/

namespace Respaced

variable {rule : GapRule} {next previous : Option Char} {s s' : List Char}

/-- A character that both texts start with. -/
theorem here {d : Char} (hd : isSpacing d = false) (hrule : rule previous (some d) [] [])
    (hs : Respaced rule next (some d) s s') : Respaced rule next previous (d :: s) (d :: s') := by
  show Respaced rule next previous ([] ++ d :: s) ([] ++ d :: s')
  exact .cons isGap_nil isGap_nil hd hrule hs

/-- A gap is replaced with a gap. -/
theorem of_isGap (hs : Respaced rule next previous s s') (hgap : IsGap s) :
    IsGap s' ∧ rule previous next s s' := by
  cases hs with
  | last hg hg' hrule => exact ⟨hg', hrule⟩
  | cons hg hg' hd hrule hs => exact absurd hgap (not_isGap_append_cons hd)

/-- The first character that is not in a gap stays. -/
theorem exists_of_cons {g : List Char} {d : Char}
    (hs : Respaced rule next previous (g ++ d :: s) s') (hg : IsGap g) (hd : isSpacing d = false) :
    ∃ g' t, s' = g' ++ d :: t ∧ IsGap g' ∧ rule previous (some d) g g'
      ∧ Respaced rule next (some d) s t := by
  generalize hwhole : g ++ d :: s = whole at hs
  cases hs with
  | last hgap _ _ =>
    rw [← hwhole] at hgap
    exact absurd hgap (not_isGap_append_cons hd)
  | cons hg₁ hg' hd₁ hrule hs =>
    obtain ⟨rfl, rfl, rfl⟩ := gap_append_inj hg hg₁ hd hd₁ hwhole
    exact ⟨_, _, rfl, hg', hrule, hs⟩

theorem trans {s'' : List Char} (hrule : ∀ p n g h k, rule p n g h → rule p n h k → rule p n g k)
    (hs : Respaced rule next previous s s') (hs' : Respaced rule next previous s' s'') :
    Respaced rule next previous s s'' := by
  induction hs generalizing s'' with
  | last hg hg' h =>
    obtain ⟨hgap, h'⟩ := hs'.of_isGap hg'
    exact .last hg hgap (hrule _ _ _ _ _ h h')
  | cons hg hg' hd h _ ih =>
    obtain ⟨g'', t, rfl, hg'', h', ht⟩ := hs'.exists_of_cons hg' hd
    exact .cons hg hg'' hd (hrule _ _ _ _ _ h h') (ih ht)

end Respaced

/-! ## Corresponding positions -/

/-- The number of characters that are not in gaps. -/
def solidCount (s : List Char) : Nat := s.countP fun c => !isSpacing c

@[simp] theorem solidCount_nil : solidCount [] = 0 := rfl

@[simp] theorem solidCount_append (s t : List Char) :
    solidCount (s ++ t) = solidCount s + solidCount t :=
  List.countP_append

theorem solidCount_cons {d : Char} (hd : isSpacing d = false) (s : List Char) :
    solidCount (d :: s) = solidCount s + 1 := by
  rw [solidCount, List.countP_cons_of_pos (by rw [hd]; rfl), solidCount]

theorem IsGap.solidCount_eq {g : List Char} (hg : IsGap g) : solidCount g = 0 :=
  List.countP_eq_zero.2 fun c hc => by rw [hg c hc]; exact Bool.false_ne_true

theorem Respaced.solidCount_eq {rule : GapRule} {next previous : Option Char} {s s' : List Char}
    (hs : Respaced rule next previous s s') : solidCount s = solidCount s' := by
  induction hs with
  | last hg hg' _ => rw [hg.solidCount_eq, hg'.solidCount_eq]
  | cons hg hg' hd _ _ ih =>
    rw [solidCount_append, solidCount_append, solidCount_cons hd, solidCount_cons hd,
      hg.solidCount_eq, hg'.solidCount_eq, ih]

/-- Within the gap at the start of a text, or behind the first other character. -/
theorem take_drop_gap_append (g : List Char) (d : Char) (s : List Char) (k : Nat) :
    ((g ++ d :: s).take k = g.take k ∧ (g ++ d :: s).drop k = g.drop k ++ d :: s)
      ∨ ∃ j, (g ++ d :: s).take k = g ++ d :: s.take j ∧ (g ++ d :: s).drop k = s.drop j := by
  rcases Nat.lt_or_ge g.length k with hk | hk
  · obtain ⟨j, rfl⟩ := Nat.exists_eq_add_of_lt hk
    refine .inr ⟨j, ?_, ?_⟩
    · rw [Nat.add_assoc, List.take_length_add_append, List.take_succ_cons]
    · rw [Nat.add_assoc, List.drop_length_add_append, List.drop_succ_cons]
  · exact .inl ⟨List.take_append_of_le_length hk, List.drop_append_of_le_length hk⟩

theorem IsGap.take {g : List Char} (hg : IsGap g) (k : Nat) : IsGap (g.take k) :=
  hg.of_subset (List.take_subset k g)

theorem IsGap.drop {g : List Char} (hg : IsGap g) (k : Nat) : IsGap (g.drop k) :=
  hg.of_subset (List.drop_subset k g)

/-- Two positions either are both in the gaps at the starts of two texts, or both behind the first
    other character. -/
theorem positions_cases {g g' s s' : List Char} {d : Char} {k k' : Nat} (hg : IsGap g)
    (hg' : IsGap g') (hd : isSpacing d = false)
    (h : solidCount ((g ++ d :: s).take k) = solidCount ((g' ++ d :: s').take k')) :
    ((g ++ d :: s).take k = g.take k ∧ (g ++ d :: s).drop k = g.drop k ++ d :: s
      ∧ (g' ++ d :: s').take k' = g'.take k' ∧ (g' ++ d :: s').drop k' = g'.drop k' ++ d :: s')
    ∨ ∃ j j', solidCount (s.take j) = solidCount (s'.take j')
      ∧ (g ++ d :: s).take k = g ++ d :: s.take j ∧ (g ++ d :: s).drop k = s.drop j
      ∧ (g' ++ d :: s').take k' = g' ++ d :: s'.take j'
      ∧ (g' ++ d :: s').drop k' = s'.drop j' := by
  obtain ⟨htake, hdrop⟩ | ⟨j, htake, hdrop⟩ := take_drop_gap_append g d s k
  · obtain ⟨htake', hdrop'⟩ | ⟨j', htake', hdrop'⟩ := take_drop_gap_append g' d s' k'
    · exact .inl ⟨htake, hdrop, htake', hdrop'⟩
    · rw [htake, htake', (hg.take k).solidCount_eq, solidCount_append, solidCount_cons hd] at h
      omega
  · obtain ⟨htake', hdrop'⟩ | ⟨j', htake', hdrop'⟩ := take_drop_gap_append g' d s' k'
    · rw [htake, htake', (hg'.take k').solidCount_eq, solidCount_append, solidCount_cons hd] at h
      omega
    · refine .inr ⟨j, j', ?_, htake, hdrop, htake', hdrop'⟩
      rw [htake, htake', solidCount_append, solidCount_append, solidCount_cons hd,
        solidCount_cons hd, hg.solidCount_eq, hg'.solidCount_eq] at h
      omega

theorem solidCount_take_mono (s : List Char) {k l : Nat} (h : k ≤ l) :
    solidCount (s.take k) ≤ solidCount (s.take l) :=
  (List.take_prefix_take_left h).sublist.countP_le

/-- The number of characters in a slice that are not in gaps, from those before its ends. -/
theorem solidCount_slice (s : List Char) (start stop : Nat) :
    solidCount (slice s start stop)
      = solidCount (s.take stop) - solidCount (s.take start) := by
  rw [slice]
  rcases Nat.le_total start stop with h | h
  · have hsplit : s.take stop = s.take start ++ (s.drop start).take (stop - start) := by
      rw [← List.take_add, Nat.add_sub_cancel' h]
    rw [hsplit, solidCount_append, Nat.add_sub_cancel_left]
  · have hle := solidCount_take_mono s h
    rw [Nat.sub_eq_zero_of_le h, List.take_zero, solidCount_nil, Nat.sub_eq_zero_of_le hle]

/-! ## Blanks that do not matter -/

/-- Whether a gap stays one: it is as before, or it was more than one single space and is not empty
    now. -/
def KeepsGap (g g' : List Char) : Prop :=
  g' = g ∨ (g ≠ [] ∧ g ≠ [' '] ∧ g' ≠ [] ∧ g' ⊆ ' ' :: g)

/-- The rule by which gaps stay gaps. -/
def keepingRule : GapRule := fun _ _ g g' => KeepsGap g g'

/-- The rule by which gaps stay gaps, except that a line break or tab behind a closing bracket may
    be dropped together with its gap. -/
def innerRule : GapRule := fun previous _ g g' =>
  KeepsGap g g' ∨ (previous = some '>' ∧ g' = [] ∧ ∃ c ∈ g, isBreak c)

/-- The inner rule for gaps between characters; gaps at the edges do not matter. -/
def looseRule : GapRule := fun previous next g g' =>
  previous = none ∨ next = none ∨ innerRule previous next g g'

/-- The inner rule for gaps between characters; there are no gaps at the edges. -/
def trimmedRule : GapRule := fun previous next g g' =>
  innerRule previous next g g' ∧ (previous = none ∨ next = none → g = [] ∧ g' = [])

theorem KeepsGap.refl (g : List Char) : KeepsGap g g := .inl rfl

theorem KeepsGap.eq_nil_iff {g g' : List Char} (h : KeepsGap g g') : g = [] ↔ g' = [] := by
  obtain rfl | ⟨hne, -, hne', -⟩ := h
  · exact Iff.rfl
  · exact iff_of_false hne hne'

theorem KeepsGap.subset {g g' : List Char} (h : KeepsGap g g') : g' ⊆ ' ' :: g := by
  obtain rfl | ⟨-, -, -, hsub⟩ := h
  · exact List.subset_cons_self _ _
  · exact hsub

theorem KeepsGap.trans {g h k : List Char} (hg : KeepsGap g h) (hh : KeepsGap h k) :
    KeepsGap g k := by
  obtain rfl | ⟨hne, hspace, hne', hsub⟩ := hg
  · exact hh
  · obtain rfl | ⟨-, -, hne'', hsub'⟩ := hh
    · exact .inr ⟨hne, hspace, hne', hsub⟩
    · exact .inr ⟨hne, hspace, hne'',
        fun c hc => List.cons_subset.2 ⟨List.mem_cons_self, hsub⟩ (hsub' hc)⟩

theorem KeepsGap.append {g g' h h' : List Char} (hg : KeepsGap g g') (hh : KeepsGap h h') :
    KeepsGap (g ++ h) (g' ++ h') := by
  have hsub : g' ++ h' ⊆ ' ' :: (g ++ h) := by
    refine List.append_subset.2 ⟨fun c hc => ?_, fun c hc => ?_⟩
    · exact List.cons_subset_cons _ (List.subset_append_left g h) (hg.subset hc)
    · exact List.cons_subset_cons _ (List.subset_append_right g h) (hh.subset hc)
  obtain rfl | ⟨hne, hspace, hne', -⟩ := hg
  · obtain rfl | ⟨hne, hspace, hne', -⟩ := hh
    · exact .refl _
    · refine .inr ⟨by simp [hne], ?_, by simp [hne'], hsub⟩
      rw [ne_eq, List.append_eq_singleton_iff]
      rintro (⟨-, heq⟩ | ⟨-, heq⟩)
      · exact hspace heq
      · exact hne heq
  · refine .inr ⟨by simp [hne], ?_, by simp [hne'], hsub⟩
    rw [ne_eq, List.append_eq_singleton_iff]
    rintro (⟨heq, -⟩ | ⟨heq, -⟩)
    · exact hne heq
    · exact hspace heq

theorem innerRule_trans (previous next : Option Char) (g h k : List Char)
    (hg : innerRule previous next g h) (hh : innerRule previous next h k) :
    innerRule previous next g k := by
  obtain hg | ⟨hprevious, rfl, hbreak⟩ := hg
  · obtain hh | ⟨hprevious, rfl, c, hc, hbreak⟩ := hh
    · exact .inl (hg.trans hh)
    · -- the break was there from the start, as it is no space
      refine .inr ⟨hprevious, rfl, c, ?_, hbreak⟩
      refine List.mem_of_ne_of_mem ?_ (hg.subset hc)
      rintro rfl
      exact absurd hbreak (by decide)
  · obtain hh | ⟨-, -, c, hc, -⟩ := hh
    · exact .inr ⟨hprevious, hh.eq_nil_iff.1 rfl, hbreak⟩
    · exact absurd hc List.not_mem_nil

theorem looseRule_of_innerRule {previous next : Option Char} {g g' : List Char}
    (h : innerRule previous next g g') : looseRule previous next g g' := .inr (.inr h)

theorem looseRule_trans (previous next : Option Char) (g h k : List Char)
    (hg : looseRule previous next g h) (hh : looseRule previous next h k) :
    looseRule previous next g k := by
  obtain hnone | hnone | hg := hg
  · exact .inl hnone
  · exact .inr (.inl hnone)
  · obtain hnone | hnone | hh := hh
    · exact .inl hnone
    · exact .inr (.inl hnone)
    · exact .inr (.inr (innerRule_trans _ _ _ _ _ hg hh))

theorem innerRule.eq_nil_iff {c : Char} {next : Option Char} {g g' : List Char}
    (h : innerRule (some c) next g g') (hc : c ≠ '>') : g = [] ↔ g' = [] := by
  obtain h | ⟨heq, -, -⟩ := h
  · exact h.eq_nil_iff
  · cases heq
    exact absurd rfl hc

theorem innerRule.subset {previous next : Option Char} {g g' : List Char}
    (h : innerRule previous next g g') : g' ⊆ ' ' :: g := by
  obtain h | ⟨-, rfl, -⟩ := h
  · exact h.subset
  · exact List.nil_subset _

/-! ## Pieces of respaced texts -/

namespace Respaced

variable {previous next : Option Char} {s s' : List Char}

theorem take (hs : Respaced looseRule next previous s s') {k k' : Nat}
    (h : solidCount (s.take k) = solidCount (s'.take k')) :
    Respaced looseRule none previous (s.take k) (s'.take k') := by
  induction hs generalizing k k' with
  | last hg hg' _ => exact .last (hg.take k) (hg'.take k') (.inr (.inl rfl))
  | cons hg hg' hd hrule _ ih =>
    obtain ⟨htake, -, htake', -⟩ | ⟨j, j', hcount, htake, -, htake', -⟩ :=
      positions_cases hg hg' hd h
    · rw [htake, htake']
      exact .last (hg.take k) (hg'.take k') (.inr (.inl rfl))
    · rw [htake, htake']
      exact .cons hg hg' hd hrule (ih hcount)

theorem drop (hs : Respaced looseRule next previous s s') {k k' : Nat}
    (h : solidCount (s.take k) = solidCount (s'.take k')) :
    Respaced looseRule next none (s.drop k) (s'.drop k') := by
  induction hs generalizing k k' with
  | last hg hg' _ => exact .last (hg.drop k) (hg'.drop k') (.inl rfl)
  | cons hg hg' hd _ hs ih =>
    obtain ⟨-, hdrop, -, hdrop'⟩ | ⟨j, j', hcount, -, hdrop, -, hdrop'⟩ :=
      positions_cases hg hg' hd h
    · rw [hdrop, hdrop']
      exact .cons (hg.drop k) (hg'.drop k') hd (.inl rfl) hs
    · rw [hdrop, hdrop']
      exact ih hcount

/-- Slices between corresponding positions. -/
theorem slice (hs : Respaced looseRule next previous s s') {start start' stop stop' : Nat}
    (hstart : solidCount (s.take start) = solidCount (s'.take start'))
    (hstop : solidCount (s.take stop) = solidCount (s'.take stop')) :
    Respaced looseRule none none (slice s start stop) (BlockTemplate.slice s' start' stop') := by
  refine (hs.drop hstart).take ?_
  rw [← BlockTemplate.slice, ← BlockTemplate.slice, solidCount_slice, solidCount_slice, hstart,
    hstop]

end Respaced

end BlockTemplate
