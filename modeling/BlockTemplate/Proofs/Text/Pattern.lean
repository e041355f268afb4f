import BlockTemplate.Text.Basic
import BlockTemplate.Text.Word

/-!
# Patterns and blanks

What the elementary searches of a text find: a pattern at the start of a text, the first occurrence
of a pattern, and the blanks around a text.
-/

namespace BlockTemplate

/-! ## Patterns -/

@[simp] theorem afterPattern?_append_self (pattern s : List Char) :
    afterPattern? pattern (pattern ++ s) = some s := by
  induction pattern with
  | nil => rfl
  | cons p pattern ih => simpa [afterPattern?] using ih

theorem eq_append_of_afterPattern? {pattern s rest : List Char}
    (h : afterPattern? pattern s = some rest) : s = pattern ++ rest := by
  induction pattern generalizing s with
  | nil =>
    cases h
    rfl
  | cons p pattern ih =>
    cases s with
    | nil => exact nomatch h
    | cons c s =>
      simp only [afterPattern?] at h
      split at h
      · rename_i hc
        rw [List.cons_append, ← ih h, hc]
      · exact nomatch h

theorem afterPattern?_append_of_some {pattern s after : List Char}
    (h : afterPattern? pattern s = some after) (t : List Char) :
    afterPattern? pattern (s ++ t) = some (after ++ t) := by
  induction pattern generalizing s with
  | nil =>
    cases h
    rfl
  | cons p pattern ih =>
    cases s with
    | nil => exact nomatch h
    | cons c s =>
      simp only [List.cons_append, afterPattern?] at h ⊢
      split
      · rename_i hc
        rw [if_pos hc] at h
        exact ih h
      · rename_i hc
        rw [if_neg hc] at h
        exact nomatch h

/-- A pattern does not reach across a character that is not in it. -/
theorem afterPattern?_append_cons {pattern s : List Char} {d : Char} (hd : d ∉ pattern)
    (h : afterPattern? pattern s = none) (rest : List Char) :
    afterPattern? pattern (s ++ d :: rest) = none := by
  induction pattern generalizing s with
  | nil => exact nomatch h
  | cons p pattern ih =>
    -- where the text ends, the pattern would have to go on with the character
    have hp : p ≠ d := fun heq => hd (heq ▸ List.mem_cons_self)
    cases s with
    | nil => simp [afterPattern?, hp]
    | cons c s =>
      simp only [List.cons_append, afterPattern?] at h ⊢
      split
      · rename_i hc
        rw [if_pos hc] at h
        exact ih (fun hmem => hd (List.mem_cons_of_mem _ hmem)) h
      · rfl

theorem afterPattern?_eq_none_of_occursIn {pattern : List Char} {c : Char} {s : List Char}
    (h : occursIn pattern (c :: s) = false) :
    afterPattern? pattern (c :: s) = none ∧ occursIn pattern s = false := by
  simpa [occursIn, startsWith] using h

theorem occursIn_of_append {pattern s : List Char} (hne : pattern ≠ []) (t : List Char)
    (h : occursIn pattern (s ++ t) = false) : occursIn pattern s = false := by
  induction s with
  | nil => simp [occursIn, hne]
  | cons c s ih =>
    rw [List.cons_append] at h
    obtain ⟨hhere, hs⟩ := afterPattern?_eq_none_of_occursIn h
    -- a pattern that starts here would also start here in the longer text
    have hhere : afterPattern? pattern (c :: s) = none := by
      rw [Option.eq_none_iff_forall_ne_some]
      intro after hafter
      have hmore := afterPattern?_append_of_some hafter t
      rw [List.cons_append, hhere] at hmore
      exact nomatch hmore
    simp [occursIn, startsWith, hhere, ih hs]

/-- Where its first character is not, a pattern does not occur. -/
theorem occursIn_eq_false_of_not_mem {p : Char} {s : List Char} (hp : p ∉ s)
    (pattern : List Char) : occursIn (p :: pattern) s = false := by
  induction s with
  | nil => rfl
  | cons c s ih =>
    have hc : p ≠ c := fun heq => hp (heq ▸ List.mem_cons_self)
    have hs := ih fun hmem => hp (List.mem_cons_of_mem _ hmem)
    simp [occursIn, startsWith, afterPattern?, hc, hs]

/-! ## Blanks -/

/-- The code points of the blank characters. -/
def blankCodes : List Nat :=
  blankRanges.flatMap fun (first, last) => List.range' first (last + 1 - first)

theorem toNat_mem_blankCodes {c : Char} (h : isBlank c) : c.toNat ∈ blankCodes := by
  simp only [isBlank, blankRanges, CharRanges.contains] at h
  simp only [blankCodes, blankRanges, List.flatMap_cons, List.flatMap_nil, List.mem_append,
    List.mem_range'_1]
  grind

/-- No word character is blank. -/
theorem isBlank_eq_false_of_isWord {c : Char} (h : isWord c) : isBlank c = false := by
  -- there are few blanks, so that each can be looked at
  have hcodes : ∀ n ∈ blankCodes, isWord (Char.ofNat n) = false := by decide +kernel
  rw [Bool.eq_false_iff]
  intro hblank
  have hword := hcodes _ (toNat_mem_blankCodes hblank)
  rw [Char.ofNat_toNat, h] at hword
  exact nomatch hword

/-- The text neither starts nor ends with a character of property `p`. -/
structure HasNoEdges (p : Char → Bool) (s : List Char) : Prop where
  head : ∀ c ∈ s.head?, p c = false
  last : ∀ c ∈ s.getLast?, p c = false

theorem dropWhile_eq_self_of_head {p : Char → Bool} {s : List Char}
    (h : ∀ c ∈ s.head?, p c = false) : s.dropWhile p = s := by
  cases s with
  | nil => rfl
  | cons c s => simp [h c rfl]

theorem trimEnd_append {p : Char → Bool} {s t : List Char} (hs : ∀ c ∈ s.getLast?, p c = false)
    (ht : ∀ c ∈ t, p c) : trimEnd p (s ++ t) = s := by
  have hrev : ∀ c ∈ t.reverse, p c := fun c hc => ht c (List.mem_reverse.1 hc)
  rw [trimEnd, List.reverse_append, List.dropWhile_append_of_pos hrev,
    dropWhile_eq_self_of_head (by simpa using hs), List.reverse_reverse]

/-- Trimming takes away what is around a text without such characters at its edges. -/
theorem trimBoth_append {p : Char → Bool} (before after : List Char) {s : List Char}
    (hs : HasNoEdges p s) (hne : s ≠ []) (hbefore : ∀ c ∈ before, p c) (hafter : ∀ c ∈ after, p c) :
    trimBoth p (before ++ (s ++ after)) = s := by
  -- the text in the middle is not empty, so that its first character stops the front
  have hhead : ∀ c ∈ (s ++ after).head?, p c = false := by
    obtain ⟨c, t, rfl⟩ := List.exists_cons_of_ne_nil hne
    exact hs.head
  rw [trimBoth, List.dropWhile_append_of_pos hbefore, dropWhile_eq_self_of_head hhead,
    trimEnd_append hs.last hafter]

theorem trimBoth_eq_self {p : Char → Bool} {s : List Char} (hs : HasNoEdges p s) (hne : s ≠ []) :
    trimBoth p s = s := by
  have htrim := trimBoth_append [] [] hs hne (by simp) (by simp)
  rwa [List.nil_append, List.append_nil] at htrim

theorem head_dropWhile_eq_false {p : Char → Bool} {s : List Char} :
    ∀ c ∈ (s.dropWhile p).head?, p c = false := by
  intro c hc
  have := List.head?_dropWhile_not p s
  rw [Option.mem_def.1 hc] at this
  simpa using this

theorem hasNoEdges_of_trimBoth_eq_self {p : Char → Bool} {s : List Char}
    (h : trimBoth p s = s) : HasNoEdges p s := by
  -- trimming only ever shortens, so that neither side has been shortened
  have hdrop : s.dropWhile p = s := by
    refine (List.dropWhile_suffix p).eq_of_length_le ?_
    calc s.length = (trimBoth p s).length := by rw [h]
      _ ≤ (s.dropWhile p).length := length_trimEnd_le p _
  refine ⟨hdrop ▸ head_dropWhile_eq_false, ?_⟩
  rw [trimBoth, hdrop, trimEnd] at h
  rw [← h, List.getLast?_reverse]
  exact head_dropWhile_eq_false

/-- What is trimmed off a text is blanks around it. -/
theorem exists_eq_append_trimEnd {p : Char → Bool} (s : List Char) :
    ∃ trail, s = trimEnd p s ++ trail ∧ ∀ c ∈ trail, p c := by
  refine ⟨(s.reverse.takeWhile p).reverse, ?_, fun c hc => ?_⟩
  · rw [trimEnd, ← List.reverse_append, List.takeWhile_append_dropWhile, List.reverse_reverse]
  · exact List.all_eq_true.1 List.all_takeWhile c (List.mem_reverse.1 hc)

theorem exists_eq_append_trimBoth {p : Char → Bool} (s : List Char) :
    ∃ trail, s = s.takeWhile p ++ (trimBoth p s ++ trail) ∧ ∀ c ∈ trail, p c := by
  obtain ⟨trail, htrail, hmargin⟩ := exists_eq_append_trimEnd (p := p) (s.dropWhile p)
  refine ⟨trail, ?_, hmargin⟩
  rw [trimBoth, ← htrail, List.takeWhile_append_dropWhile]

theorem head?_trimBoth_eq_false {p : Char → Bool} {s : List Char} :
    ∀ c ∈ (trimBoth p s).head?, p c = false := by
  obtain ⟨trail, htrail, -⟩ := exists_eq_append_trimEnd (p := p) (s.dropWhile p)
  intro c hc
  refine head_dropWhile_eq_false (s := s) c ?_
  rw [htrail, List.head?_append]
  rw [trimBoth, Option.mem_def] at hc
  rw [hc]
  rfl

theorem trimBoth_within {p : Char → Bool} (s : List Char) : trimBoth p s <:+: s := by
  have hend : trimEnd p (s.dropWhile p) <+: s.dropWhile p := by
    have hsuffix := List.dropWhile_suffix p (l := (s.dropWhile p).reverse)
    rw [trimEnd]
    simpa using List.reverse_prefix.2 hsuffix
  exact hend.isInfix.trans (List.dropWhile_suffix p).isInfix

theorem getLast?_trimBoth_eq_false {p : Char → Bool} {s : List Char} :
    ∀ c ∈ (trimBoth p s).getLast?, p c = false := by
  intro c hc
  rw [trimBoth, trimEnd, List.getLast?_reverse] at hc
  exact head_dropWhile_eq_false c hc

end BlockTemplate
