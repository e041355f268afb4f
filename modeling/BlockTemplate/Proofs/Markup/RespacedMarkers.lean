import Mathlib
import BlockTemplate.Proofs.Markup.Closed
import BlockTemplate.Proofs.Markup.Respacing

/-!
# Markers in respaced texts

Where a text is respaced by replacing gaps between its characters, all its markers stay. Keywords
and names have no gaps in them, and none around them is dropped, because none of their characters is
a bracket. The headers of loops and conditionals are respaced with the text.

## Key results

- `splitAtPattern?_respaced`: the first occurrence of a pattern without gaps
- `Marker.ofContent?_respaced`, `marker?_respaced`: the marker at the start of a text
-/

namespace BlockTemplate

/-! ## Results that are missing together, or related -/

section
variable {α α' β β' : Type} {R : α → α' → Prop} {S : β → β' → Prop}

theorem rel_map {o : Option α} {o' : Option α'} {f : α → β} {f' : α' → β'} (h : Option.Rel R o o')
    (hf : ∀ a a', R a a' → S (f a) (f' a')) : Option.Rel S (o.map f) (o'.map f') := by
  cases h with
  | none => exact .none
  | some h => exact .some (hf _ _ h)

theorem rel_bind {o : Option α} {o' : Option α'} {f : α → Option β} {f' : α' → Option β'}
    (h : Option.Rel R o o') (hf : ∀ a a', R a a' → Option.Rel S (f a) (f' a')) :
    Option.Rel S (o.bind f) (o'.bind f') := by
  cases h with
  | none => exact .none
  | some h => exact hf _ _ h

theorem rel_orElse {o p : Option α} {o' p' : Option α'} (h : Option.Rel R o o')
    (hp : Option.Rel R p p') : Option.Rel R (o <|> p) (o' <|> p') := by
  cases h with
  | none => exact hp
  | some h => exact .some h

end

/-! ## Patterns -/

/-- Whether between two characters a rule is the inner rule at most. -/
def GapRule.IsInner (rule : GapRule) : Prop :=
  ∀ {c d : Char} {g g' : List Char}, rule (some c) (some d) g g' →
    innerRule (some c) (some d) g g'

theorem isInner_looseRule : looseRule.IsInner := by
  rintro c d g g' (h | h | h)
  · exact nomatch h
  · exact nomatch h
  · exact h

theorem isInner_trimmedRule : trimmedRule.IsInner := fun h => h.1

section
variable {rule : GapRule} {next previous : Option Char} {s s' : List Char}

theorem afterPattern?_eq_none_of_isSpacing {p c : Char} (hp : isSpacing p = false)
    (hc : isSpacing c) (pattern s : List Char) : afterPattern? (p :: pattern) (c :: s) = none := by
  rw [afterPattern?, if_neg (ne_of_isSpacing hc hp).symm]

theorem afterPattern?_eq_none_of_isGap {p : Char} (hp : isSpacing p = false) {g : List Char}
    (hg : IsGap g) (pattern : List Char) : afterPattern? (p :: pattern) g = none := by
  cases g with
  | nil => rfl
  | cons c g => exact afterPattern?_eq_none_of_isSpacing hp (isGap_cons.1 hg).1 pattern g

/-- A pattern behind a character, with no gap in between. -/
theorem afterPattern?_respaced (hinner : rule.IsInner) (pattern : List Char) {c : Char}
    (hpattern : isSolid pattern) (hbracket : '>' ∉ (c :: pattern).dropLast)
    (hs : Respaced rule next (some c) s s') :
    Option.Rel (Respaced rule next (some (pattern.getLastD c))) (afterPattern? pattern s)
      (afterPattern? pattern s') := by
  induction pattern generalizing c s s' with
  | nil => exact .some hs
  | cons p pattern ih =>
    obtain ⟨hp, hpattern⟩ := isSolid_cons.1 hpattern
    rw [List.dropLast_cons_cons, List.mem_cons, not_or] at hbracket
    cases hs with
    | last hg hg' hrule =>
      rw [afterPattern?_eq_none_of_isGap hp hg, afterPattern?_eq_none_of_isGap hp hg']
      exact .none
    | @cons _ g g' d s s' hg hg' hd hrule hs =>
      -- within the pattern there is no bracket, so that a gap is in both texts or in neither
      have hempty := (hinner hrule).eq_nil_iff (Ne.symm hbracket.1)
      cases g with
      | nil =>
        rw [hempty.1 rfl, List.nil_append, List.nil_append, afterPattern?, afterPattern?]
        by_cases hpd : p = d
        · rw [if_pos hpd, if_pos hpd, List.getLastD_cons]
          exact ih hpattern hbracket.2 (hpd ▸ hs)
        · rw [if_neg hpd, if_neg hpd]
          exact .none
      | cons b g =>
        cases g' with
        | nil => exact absurd (hempty.2 rfl) (List.cons_ne_nil b g)
        | cons b' g' =>
          rw [List.cons_append, List.cons_append,
            afterPattern?_eq_none_of_isSpacing hp (isGap_cons.1 hg).1,
            afterPattern?_eq_none_of_isSpacing hp (isGap_cons.1 hg').1]
          exact .none

/-- A pattern at the start of a text that starts with no gap. -/
theorem afterPattern?_cons_respaced (hinner : rule.IsInner) (p : Char) (pattern : List Char)
    {d : Char} (hpattern : isSolid pattern) (hbracket : '>' ∉ (p :: pattern).dropLast)
    (hs : Respaced rule next (some d) s s') :
    Option.Rel (Respaced rule next (some (pattern.getLastD p)))
      (afterPattern? (p :: pattern) (d :: s)) (afterPattern? (p :: pattern) (d :: s')) := by
  rw [afterPattern?, afterPattern?]
  by_cases hpd : p = d
  · rw [if_pos hpd, if_pos hpd]
    exact afterPattern?_respaced hinner pattern hpattern hbracket (hpd ▸ hs)
  · rw [if_neg hpd, if_neg hpd]
    exact .none

theorem splitAtPattern?_gap_append {p : Char} (hp : isSpacing p = false) (pattern : List Char)
    {g : List Char} (hg : IsGap g) (s : List Char) :
    splitAtPattern? (p :: pattern) (g ++ s)
      = (splitAtPattern? (p :: pattern) s).map fun (before, after) => (g ++ before, after) := by
  induction g with
  | nil => exact Option.map_id'.symm
  | cons c g ih =>
    obtain ⟨hc, hg⟩ := isGap_cons.1 hg
    rw [List.cons_append, splitAtPattern?, afterPattern?_eq_none_of_isSpacing hp hc, ih hg,
      Option.map_map]
    rfl

/-- The first occurrence of a pattern without gaps stays, with the texts around it. -/
theorem splitAtPattern?_respaced (hinner : rule.IsInner) (p : Char) (pattern : List Char)
    (hp : isSpacing p = false) (hpattern : isSolid pattern)
    (hbracket : '>' ∉ (p :: pattern).dropLast) (hs : Respaced rule next previous s s') :
    Option.Rel (fun split split' => Respaced rule (some p) previous split.1 split'.1
        ∧ Respaced rule next (some (pattern.getLastD p)) split.2 split'.2)
      (splitAtPattern? (p :: pattern) s) (splitAtPattern? (p :: pattern) s') := by
  induction hs with
  | last hg hg' _ =>
    have hnone {g : List Char} (hg : IsGap g) : splitAtPattern? (p :: pattern) g = none := by
      have h := splitAtPattern?_gap_append hp pattern hg []
      rwa [List.append_nil] at h
    rw [hnone hg, hnone hg']
    exact .none
  | @cons previous g g' d s s' hg hg' hd hrule hs ih =>
    rw [splitAtPattern?_gap_append hp pattern hg, splitAtPattern?_gap_append hp pattern hg',
      splitAtPattern?, splitAtPattern?]
    -- a gap goes to the text in front, whether the pattern is behind it or later
    have hlater : Option.Rel (fun split split' => Respaced rule (some p) previous split.1 split'.1
          ∧ Respaced rule next (some (pattern.getLastD p)) split.2 split'.2)
        (((splitAtPattern? (p :: pattern) s).map fun (before, after) => (d :: before, after)).map
          fun (before, after) => (g ++ before, after))
        (((splitAtPattern? (p :: pattern) s').map fun (before, after) => (d :: before, after)).map
          fun (before, after) => (g' ++ before, after)) := by
      refine rel_map (rel_map ih fun _ _ h => ?_) fun _ _ h => h
      exact ⟨.cons hg hg' hd hrule h.1, h.2⟩
    rw [afterPattern?, afterPattern?]
    by_cases hpd : p = d
    · have hafter := afterPattern?_respaced hinner pattern hpattern hbracket (hpd ▸ hs)
      rw [if_pos hpd, if_pos hpd]
      generalize afterPattern? pattern s = o, afterPattern? pattern s' = o' at hafter
      cases hafter with
      | none => exact hlater
      | some hafter =>
        refine .some ⟨?_, hafter⟩
        dsimp only
        rw [List.append_nil, List.append_nil]
        exact .last hg hg' (hpd ▸ hrule)
    · rw [if_neg hpd, if_neg hpd]
      exact hlater

end

/-! ## Comments -/

theorem looseRule_of_some {next previous : Char} {s s' : List Char}
    (hs : Respaced looseRule (some next) (some previous) s s') :
    Respaced innerRule (some next) (some previous) s s' := by
  generalize hprevious : some previous = before at hs
  induction hs generalizing previous with
  | last hg hg' hrule =>
    subst hprevious
    exact .last hg hg' (isInner_looseRule hrule)
  | cons hg hg' hd hrule _ ih =>
    subst hprevious
    exact .cons hg hg' hd (isInner_looseRule hrule) (ih rfl)

/-- What the comment at the start of a text says is respaced with the text. -/
theorem comment?_respaced {next : Option Char} {d : Char} {s s' : List Char}
    (hs : Respaced looseRule next (some d) s s') :
    Option.Rel (Respaced innerRule (some '-') (some '-')) (comment? (d :: s))
      (comment? (d :: s')) := by
  have hstart : Option.Rel (Respaced looseRule next (some '-'))
      (afterPattern? commentStart (d :: s)) (afterPattern? commentStart (d :: s')) :=
    afterPattern?_cons_respaced isInner_looseRule '<' ['!', '-', '-'] (by decide) (by decide)
      hs
  have hend {inner inner' : List Char} (hinner : Respaced looseRule next (some '-') inner inner') :
      Option.Rel (fun split split' => Respaced looseRule (some '-') (some '-') split.1 split'.1
          ∧ Respaced looseRule next (some '>') split.2 split'.2)
        (splitAtPattern? commentEnd inner) (splitAtPattern? commentEnd inner') :=
    splitAtPattern?_respaced isInner_looseRule '-' ['-', '>'] (by decide) (by decide) (by decide)
      hinner
  rw [comment?, comment?]
  refine rel_bind hstart fun inner inner' hinner => ?_
  exact rel_bind (hend hinner) fun split split' hsplit => .some (looseRule_of_some hsplit.1)

/-- The characters of a comment. -/
theorem take_of_comment? {s content : List Char} (h : comment? s = some content) :
    s.take (commentSize content) = commentStart ++ content ++ commentEnd := by
  simp only [comment?, Option.bind_eq_bind, Option.pure_def, Option.bind_eq_some_iff,
    Option.some.injEq] at h
  obtain ⟨inner, hstart, ⟨before, after⟩, hsplit, rfl⟩ := h
  obtain ⟨hinner, -⟩ := splitAtPattern?_take hsplit
  have hsize : commentSize before = (commentStart ++ before ++ commentEnd).length := by
    simp only [commentSize, List.length_append]
  rw [eq_append_of_afterPattern? hstart, hinner, hsize, ← List.append_assoc, ← List.append_assoc,
    List.take_left]

/-! ## Trimmed texts -/

section
variable {s s' : List Char}

theorem Respaced.mem {rule : GapRule} {next previous : Option Char}
    (hrule : ∀ p n g g', rule p n g g' → g' ⊆ ' ' :: g) (hs : Respaced rule next previous s s')
    {c : Char} (hc : c ∈ s') : c = ' ' ∨ c ∈ s := by
  induction hs with
  | last _ _ h => exact List.mem_cons.1 (hrule _ _ _ _ h hc)
  | cons _ _ _ h _ ih =>
    rcases List.mem_append.1 hc with hc | hc
    · exact (List.mem_cons.1 (hrule _ _ _ _ h hc)).imp_right (List.mem_append_left _)
    · rcases List.mem_cons.1 hc with rfl | hc
      · exact .inr (List.mem_append_right _ List.mem_cons_self)
      · exact (ih hc).imp_right fun hc => List.mem_append_right _ (List.mem_cons_of_mem _ hc)

theorem trimEnd_append_cons {p : Char → Bool} {d : Char} (hd : p d = false) (w t : List Char) :
    trimEnd p (w ++ d :: t) = w ++ d :: trimEnd p t := by
  have hreverse : (w ++ d :: t).reverse = t.reverse ++ d :: w.reverse := by simp
  rw [trimEnd, hreverse, List.dropWhile_append, trimEnd]
  split
  · rename_i hempty
    rw [List.dropWhile_cons_of_neg (by rw [hd]; exact Bool.false_ne_true),
      List.isEmpty_iff.1 hempty]
    simp
  · simp

theorem IsGap.trimEnd_eq {g : List Char} (hg : IsGap g) : trimEnd isSpacing g = [] := by
  have h := trimEnd_append (s := []) (p := isSpacing) (by simp) hg
  rwa [List.nil_append] at h

theorem Respaced.trimEnd {next : Option Char} {d : Char}
    (hs : Respaced innerRule next (some d) s s') :
    Respaced trimmedRule none (some d) (trimEnd isSpacing s) (trimEnd isSpacing s') := by
  generalize hprevious : some d = previous at hs
  induction hs generalizing d with
  | last hg hg' _ =>
    rw [hg.trimEnd_eq, hg'.trimEnd_eq]
    exact .last isGap_nil isGap_nil ⟨.inl (.refl _), fun _ => ⟨rfl, rfl⟩⟩
  | cons hg hg' he hrule _ ih =>
    subst hprevious
    rw [trimEnd_append_cons he, trimEnd_append_cons he]
    exact .cons hg hg' he ⟨hrule, fun hnone => by simp at hnone⟩ (ih rfl)

/-- Texts without the gaps at their edges. -/
theorem Respaced.trimBoth {next previous : Option Char}
    (hs : Respaced innerRule next previous s s') :
    Respaced trimmedRule none none (trimBoth isSpacing s) (trimBoth isSpacing s') := by
  cases hs with
  | last hg hg' _ =>
    have hempty {g : List Char} (hg : IsGap g) : BlockTemplate.trimBoth isSpacing g = [] := by
      have hdrop := hg.of_subset (List.dropWhile_suffix isSpacing).subset
      rw [BlockTemplate.trimBoth, hdrop.trimEnd_eq]
    rw [hempty hg, hempty hg']
    exact .last isGap_nil isGap_nil ⟨.inl (.refl _), fun _ => ⟨rfl, rfl⟩⟩
  | @cons _ g g' d t t' hg hg' hd _ hs =>
    have hdrop {g t : List Char} (hg : IsGap g) :
        BlockTemplate.trimBoth isSpacing (g ++ d :: t)
          = d :: BlockTemplate.trimEnd isSpacing t := by
      have hstop : (d :: t).dropWhile isSpacing = d :: t :=
        List.dropWhile_cons_of_neg (by rw [hd]; exact Bool.false_ne_true)
      rw [BlockTemplate.trimBoth, List.dropWhile_append_of_pos hg, hstop]
      exact trimEnd_append_cons hd [] t
    rw [hdrop hg, hdrop hg']
    exact .cons isGap_nil isGap_nil hd ⟨.inl (.refl _), fun _ => ⟨rfl, rfl⟩⟩ hs.trimEnd

/-- Both texts are empty, or both start with the same character. -/
theorem Respaced.cases_trimmed (hs : Respaced trimmedRule none none s s') :
    (s = [] ∧ s' = []) ∨ ∃ d t t', s = d :: t ∧ s' = d :: t' ∧ isSpacing d = false
      ∧ Respaced trimmedRule none (some d) t t' := by
  cases hs with
  | last _ _ hrule => exact .inl (hrule.2 (.inl rfl))
  | cons _ _ hd hrule hs =>
    obtain ⟨rfl, rfl⟩ := hrule.2 (.inl rfl)
    exact .inr ⟨_, _, _, rfl, rfl, hd, hs⟩

theorem Respaced.eq_nil_iff {previous : Option Char}
    (hs : Respaced trimmedRule none previous s s') : s = [] ↔ s' = [] := by
  cases hs with
  | last _ _ hrule =>
    obtain ⟨rfl, rfl⟩ := hrule.2 (.inr rfl)
    exact Iff.rfl
  | cons => simp

/-- Where neither text starts with such a character, there is no run. -/
theorem Respaced.no_run {rule : GapRule} {next : Option Char} {p : Char → Bool} {c : Char}
    (hc : c ≠ '>') (hs : Respaced rule next (some c) s s') (h : ∀ b ∈ s.head?, ¬ p b)
    (h' : ∀ b ∈ s'.head?, ¬ p b) :
    s.takeWhile p = s'.takeWhile p
      ∧ ∃ d, d ≠ '>' ∧ Respaced rule next (some d) (s.dropWhile p) (s'.dropWhile p) := by
  have hstop {s : List Char} (h : ∀ b ∈ s.head?, ¬ p b) :
      s.takeWhile p = [] ∧ s.dropWhile p = s := by
    cases s with
    | nil => exact ⟨rfl, rfl⟩
    | cons b s =>
      exact ⟨List.takeWhile_cons_of_neg (h b rfl), List.dropWhile_cons_of_neg (h b rfl)⟩
  rw [(hstop h).1, (hstop h').1, (hstop h).2, (hstop h').2]
  exact ⟨rfl, c, hc, hs⟩

/-- A run of characters of which none is blank or a bracket. -/
theorem Respaced.run {rule : GapRule} {next : Option Char} (hinner : rule.IsInner)
    {p : Char → Bool} (hp : ∀ c, p c → isSpacing c = false ∧ c ≠ '>') {c : Char} (hc : c ≠ '>')
    (hs : Respaced rule next (some c) s s') :
    s.takeWhile p = s'.takeWhile p
      ∧ ∃ d, d ≠ '>' ∧ Respaced rule next (some d) (s.dropWhile p) (s'.dropWhile p) := by
  have hgap {g : List Char} (hg : IsGap g) : ∀ b ∈ g.head?, ¬ p b := by
    intro b hb h
    have hspacing := hg b (List.mem_of_mem_head? hb)
    rw [(hp b h).1] at hspacing
    exact Bool.false_ne_true hspacing
  generalize hprevious : some c = previous at hs
  induction hs generalizing c with
  | @last _ g g' hg hg' hrule =>
    subst hprevious
    exact Respaced.no_run hc (.last hg hg' hrule) (hgap hg) (hgap hg')
  | @cons _ g g' d t t' hg hg' hd hrule hs ih =>
    subst hprevious
    have hempty := (hinner hrule).eq_nil_iff hc
    cases g with
    | nil =>
      -- behind a character that is no bracket, both gaps are empty or none is
      obtain rfl := hempty.1 rfl
      rw [List.nil_append, List.nil_append]
      by_cases hpd : p d
      · obtain ⟨htake, e, he, hdrop⟩ := ih (hp d hpd).2 rfl
        rw [List.takeWhile_cons_of_pos hpd, List.takeWhile_cons_of_pos hpd, htake,
          List.dropWhile_cons_of_pos hpd, List.dropWhile_cons_of_pos hpd]
        exact ⟨rfl, e, he, hdrop⟩
      · have hhead : ∀ b ∈ some d, ¬ p b := by simpa using hpd
        exact Respaced.no_run hc (.here hd hrule hs) hhead hhead
    | cons b g =>
      cases g' with
      | nil => exact nomatch hempty.2 rfl
      | cons b' g' =>
        have hhead : ∀ a ∈ (b :: g).head?, ¬ p a := hgap hg
        have hhead' : ∀ a ∈ (b' :: g').head?, ¬ p a := hgap hg'
        exact Respaced.no_run hc (.cons hg hg' hd hrule hs) hhead hhead'

end

/-! ## What comments say -/

/-- Whether what comments say is respaced, without blanks around it and without null characters. -/
structure RespacedContent (previous : Option Char) (s s' : List Char) : Prop where
  respaced : Respaced trimmedRule none previous s s'
  noNull : '\x00' ∉ s
  noNull' : '\x00' ∉ s'

theorem isSpacing_eq_isBlank {c : Char} (h : c ≠ '\x00') : isSpacing c = isBlank c := by
  rw [isSpacing, beq_false_of_ne h, Bool.or_false]

theorem dropWhile_isBlank_eq {s : List Char} (h : '\x00' ∉ s) :
    s.dropWhile isBlank = s.dropWhile isSpacing := by
  induction s with
  | nil => rfl
  | cons c s ih =>
    rw [List.mem_cons, not_or] at h
    rw [List.dropWhile_cons, List.dropWhile_cons, isSpacing_eq_isBlank (Ne.symm h.1), ih h.2]

theorem trimBlank_eq {s : List Char} (h : '\x00' ∉ s) : trimBlank s = trimBoth isSpacing s := by
  have hdrop : '\x00' ∉ (s.dropWhile isSpacing).reverse := by
    rw [List.mem_reverse]
    exact fun hmem => h ((List.dropWhile_suffix _).subset hmem)
  rw [trimBlank, trimBoth, trimBoth, trimEnd, trimEnd, dropWhile_isBlank_eq h,
    dropWhile_isBlank_eq hdrop]

/-- What the comment at the start of a text says, without the blanks around it. -/
theorem respacedContent_trimBlank {s s' : List Char}
    (hs : Respaced innerRule (some '-') (some '-') s s') (hnull : '\x00' ∉ s) :
    RespacedContent none (trimBlank s) (trimBlank s') := by
  have hnull' : '\x00' ∉ s' := by
    intro hmem
    rcases hs.mem (fun _ _ _ _ h => h.subset) hmem with heq | hmem
    · exact absurd heq (by decide)
    · exact hnull hmem
  refine ⟨?_, fun hmem => ?_, fun hmem => ?_⟩
  · rw [trimBlank_eq hnull, trimBlank_eq hnull']
    exact hs.trimBoth
  · exact hnull ((trimBoth_within s).subset hmem)
  · exact hnull' ((trimBoth_within s').subset hmem)

namespace RespacedContent

variable {previous : Option Char} {s s' : List Char}

/-- Both texts are empty, or both start with the same character. -/
theorem cases_cons (hs : RespacedContent none s s') :
    (s = [] ∧ s' = []) ∨ ∃ d t t', s = d :: t ∧ s' = d :: t' ∧ isSpacing d = false
      ∧ RespacedContent (some d) t t' := by
  obtain ⟨hs, hnull, hnull'⟩ := hs
  cases hs with
  | last _ _ hrule => exact .inl (hrule.2 (.inl rfl))
  | cons _ _ hd hrule hs =>
    obtain ⟨rfl, rfl⟩ := hrule.2 (.inl rfl)
    exact .inr ⟨_, _, _, rfl, rfl, hd, hs, fun hmem => hnull (List.mem_cons_of_mem _ hmem),
      fun hmem => hnull' (List.mem_cons_of_mem _ hmem)⟩

/-- What follows a keyword at the start. -/
theorem afterKeyword? (hs : RespacedContent none s s') (p : Char) (pattern : List Char)
    (hpattern : isSolid pattern) (hbracket : '>' ∉ (p :: pattern).dropLast) :
    Option.Rel (RespacedContent (some (pattern.getLastD p)))
      (afterPattern? (p :: pattern) s) (afterPattern? (p :: pattern) s') := by
  obtain ⟨hs, hnull, hnull'⟩ := hs
  have hsuffix {s rest : List Char} (h : afterPattern? (p :: pattern) s = some rest)
      (hnull : '\x00' ∉ s) : '\x00' ∉ rest := by
    rw [eq_append_of_afterPattern? h] at hnull
    exact fun hmem => hnull (List.mem_append_right _ hmem)
  obtain ⟨rfl, rfl⟩ | ⟨d, t, t', rfl, rfl, -, ht⟩ := hs.cases_trimmed
  · exact .none
  · have hafter := afterPattern?_cons_respaced isInner_trimmedRule p pattern hpattern hbracket ht
    generalize hrest : afterPattern? (p :: pattern) (d :: t) = o,
      hrest' : afterPattern? (p :: pattern) (d :: t') = o' at hafter
    cases hafter with
    | none => exact .none
    | some h => exact .some ⟨h, hsuffix hrest hnull, hsuffix hrest' hnull'⟩

/-- A text without gaps, in which no bracket closes, is not respaced. -/
theorem eq_iff (hs : RespacedContent none s s') (p : Char) (pattern : List Char)
    (hpattern : isSolid pattern) (hbracket : '>' ∉ (p :: pattern).dropLast) :
    s = p :: pattern ↔ s' = p :: pattern := by
  have hafter := hs.afterKeyword? p pattern hpattern hbracket
  have hself (s : List Char) : s = p :: pattern ↔ afterPattern? (p :: pattern) s = some [] := by
    constructor
    · rintro rfl
      have h := afterPattern?_append_self (p :: pattern) []
      rwa [List.append_nil] at h
    · intro h
      rw [eq_append_of_afterPattern? h, List.append_nil]
  rw [hself, hself]
  generalize afterPattern? (p :: pattern) s = o, afterPattern? (p :: pattern) s' = o' at hafter
  cases hafter with
  | none => exact Iff.rfl
  | some h => rw [Option.some.injEq, Option.some.injEq, h.respaced.eq_nil_iff]

/-- A run of characters of which none is blank or a bracket. -/
theorem run {p : Char → Bool} (hp : ∀ c, p c → isSpacing c = false ∧ c ≠ '>') {c : Char}
    (hc : c ≠ '>') (hs : RespacedContent (some c) s s') :
    s.takeWhile p = s'.takeWhile p
      ∧ ∃ d, d ≠ '>' ∧ RespacedContent (some d) (s.dropWhile p) (s'.dropWhile p) := by
  obtain ⟨hs, hnull, hnull'⟩ := hs
  obtain ⟨htake, d, hd, hdrop⟩ := hs.run isInner_trimmedRule hp hc
  exact ⟨htake, d, hd, hdrop, fun hmem => hnull ((List.dropWhile_suffix _).subset hmem),
    fun hmem => hnull' ((List.dropWhile_suffix _).subset hmem)⟩

/-- The blanks at the start do not matter, but whether there are any does. -/
theorem dropWhile_isBlank (hs : RespacedContent previous s s') :
    RespacedContent none (s.dropWhile isBlank) (s'.dropWhile isBlank)
      ∧ (previous ≠ some '>' → ((s.dropWhile isBlank).length < s.length
        ↔ (s'.dropWhile isBlank).length < s'.length)) := by
  obtain ⟨hs, hnull, hnull'⟩ := hs
  have hdrop {s : List Char} (hnull : '\x00' ∉ s) : '\x00' ∉ s.dropWhile isSpacing :=
    fun hmem => hnull ((List.dropWhile_suffix _).subset hmem)
  rw [dropWhile_isBlank_eq hnull, dropWhile_isBlank_eq hnull']
  cases hs with
  | last hg hg' hrule =>
    obtain ⟨rfl, rfl⟩ := hrule.2 (.inr rfl)
    refine ⟨⟨.last isGap_nil isGap_nil ⟨.inl (.refl _), fun _ => ⟨rfl, rfl⟩⟩, hnull, hnull'⟩, ?_⟩
    exact fun _ => Iff.rfl
  | @cons _ g g' d t t' hg hg' hd hrule hs =>
    -- the blanks in front of the first other character are the whole gap
    have hstop {g : List Char} (hg : IsGap g) (t : List Char) :
        (g ++ d :: t).dropWhile isSpacing = d :: t := by
      rw [List.dropWhile_append_of_pos hg]
      exact List.dropWhile_cons_of_neg (by rw [hd]; exact Bool.false_ne_true)
    refine ⟨⟨?_, hdrop hnull, hdrop hnull'⟩, fun hprevious => ?_⟩
    · rw [hstop hg, hstop hg']
      exact .here hd ⟨.inl (.refl _), fun _ => ⟨rfl, rfl⟩⟩ hs
    · have hempty : g = [] ↔ g' = [] := by
        obtain hkept | ⟨heq, -⟩ := hrule.1
        · exact hkept.eq_nil_iff
        · exact absurd heq hprevious
      rw [hstop hg, hstop hg', List.length_append, List.length_append, Nat.lt_add_left_iff_pos,
        Nat.lt_add_left_iff_pos, List.length_pos_iff, List.length_pos_iff, ne_eq, ne_eq, hempty]

end RespacedContent

/-! ## Markers -/

theorem not_bracket_of_isWord {c : Char} (h : isWord c) : isSpacing c = false ∧ c ≠ '>' := by
  refine ⟨isSpacing_eq_false_of_isWord h, ?_⟩
  rintro rfl
  exact absurd h (by decide)

/-- A text that is one word is not respaced. -/
theorem RespacedContent.eq_of_all_isWord {s s' : List Char} (hs : RespacedContent none s s') :
    (s.all isWord ↔ s'.all isWord) ∧ (s.all isWord → s = s') := by
  obtain ⟨rfl, rfl⟩ | ⟨d, t, t', rfl, rfl, -, ht⟩ := hs.cases_cons
  · exact ⟨Iff.rfl, fun _ => rfl⟩
  · rw [List.all_cons, List.all_cons]
    by_cases hd : isWord d
    · obtain ⟨htake, e, -, hdrop⟩ := ht.run (fun c => not_bracket_of_isWord)
        (not_bracket_of_isWord hd).2
      have hall (t : List Char) : t.all isWord ↔ t.dropWhile isWord = [] := by
        rw [List.dropWhile_eq_nil_iff, List.all_eq_true]
      rw [hd, Bool.true_and, Bool.true_and, hall, hall]
      refine ⟨hdrop.respaced.eq_nil_iff, fun h => ?_⟩
      rw [← List.takeWhile_append_dropWhile (p := isWord) (l := t), htake, h,
        ← hdrop.respaced.eq_nil_iff.1 h, List.takeWhile_append_dropWhile]
    · simp [hd]

theorem rel_eq_refl {α : Type} (o : Option α) : Option.Rel (· = ·) o o := by
  cases o with
  | none => exact .none
  | some a => exact .some rfl

section
variable {s s' : List Char}

theorem nameAfter?_respaced (hs : RespacedContent none s s') (p : Char) (pattern : List Char)
    (hpattern : isSolid pattern) (hbracket : '>' ∉ (p :: pattern).dropLast) :
    Option.Rel (· = ·) (nameAfter? (p :: pattern) s) (nameAfter? (p :: pattern) s') := by
  refine rel_bind (hs.afterKeyword? p pattern hpattern hbracket) fun rest rest' hrest => ?_
  obtain ⟨hall, heq⟩ := hrest.dropWhile_isBlank.1.eq_of_all_isWord
  dsimp only
  by_cases hword : (rest.dropWhile isBlank).all isWord
  · rw [← heq hword]
    exact rel_eq_refl _
  · have hword' : ¬ (rest'.dropWhile isBlank).all isWord := fun h => hword (hall.2 h)
    rw [Bool.not_eq_true] at hword hword'
    rw [hword, hword', Bool.not_false, Bool.or_true, Bool.or_true, if_pos rfl, if_pos rfl]
    exact .none

theorem headerAfter?_respaced (hs : RespacedContent none s s') (p : Char) (pattern : List Char)
    (hpattern : isSolid pattern) (hbracket : '>' ∉ p :: pattern) :
    Option.Rel (RespacedContent none) (headerAfter? (p :: pattern) s)
      (headerAfter? (p :: pattern) s') := by
  have hlast : pattern.getLastD p ≠ '>' := by
    rintro heq
    refine hbracket ?_
    rw [← heq, ← List.getLast_eq_getLastD (List.cons_ne_nil _ _)]
    exact List.getLast_mem _
  refine rel_bind (hs.afterKeyword? p pattern hpattern
    fun hmem => hbracket (List.mem_of_mem_dropLast hmem)) fun rest rest' hrest => ?_
  obtain ⟨hheader, hblank⟩ := hrest.dropWhile_isBlank
  -- whether blanks follow the keyword does not depend on how many they are
  have hstarts : (rest.isEmpty || decide ((rest.dropWhile isBlank).length < rest.length)) = true
      ↔ (rest'.isEmpty || decide ((rest'.dropWhile isBlank).length < rest'.length)) = true := by
    rw [Bool.or_eq_true, Bool.or_eq_true, List.isEmpty_iff, List.isEmpty_iff, decide_eq_true_iff,
      decide_eq_true_iff, hrest.respaced.eq_nil_iff, hblank fun heq => hlast (Option.some.inj heq)]
  dsimp only
  split
  · rename_i h
    rw [if_pos (hstarts.1 h)]
    exact .some hheader
  · rename_i h
    rw [if_neg fun h' => h (hstarts.2 h')]
    exact .none

end

/-- Whether two markers are the same, apart from respaced headers of loops and conditionals. -/
inductive Marker.IsRespaced : Marker → Marker → Prop where
  | blockBegin (name : List Char) : Marker.IsRespaced (.blockBegin name) (.blockBegin name)
  | blockEnd (name : List Char) : Marker.IsRespaced (.blockEnd name) (.blockEnd name)
  | loopBegin {header header' : List Char} (h : RespacedContent none header header') :
      Marker.IsRespaced (.loopBegin header) (.loopBegin header')
  | loopEnd : Marker.IsRespaced .loopEnd .loopEnd
  | ifBegin {condition condition' : List Char} (h : RespacedContent none condition condition') :
      Marker.IsRespaced (.ifBegin condition) (.ifBegin condition')
  | ifElse : Marker.IsRespaced .ifElse .ifElse
  | ifEnd : Marker.IsRespaced .ifEnd .ifEnd

theorem Marker.ofContent?_respaced {s s' : List Char} (hs : RespacedContent none s s') :
    Option.Rel Marker.IsRespaced (Marker.ofContent? s) (Marker.ofContent? s') := by
  have hloopEnd := hs.eq_iff 'E' ['N', 'D', 'F', 'O', 'R'] (by decide) (by decide)
  have hifEnd := hs.eq_iff 'E' ['N', 'D', 'I', 'F'] (by decide) (by decide)
  have hifElse := hs.eq_iff 'E' ['L', 'S', 'E'] (by decide) (by decide)
  have hblockBegin := nameAfter?_respaced hs 'B' ['E', 'G', 'I', 'N', ':'] (by decide) (by decide)
  have hblockEnd := nameAfter?_respaced hs 'E' ['N', 'D', ':'] (by decide) (by decide)
  have hloopBegin := headerAfter?_respaced hs 'F' ['O', 'R'] (by decide) (by decide)
  have hifBegin := headerAfter?_respaced hs 'I' ['F'] (by decide) (by decide)
  -- each of the readers finds its keyword in both texts or in neither, in the same order
  unfold Marker.ofContent?
  simp only [hloopEnd, hifEnd, hifElse]
  split
  · exact .some .loopEnd
  · split
    · exact .some .ifEnd
    · split
      · exact .some .ifElse
      · refine rel_orElse (rel_map hblockBegin fun _ _ h => ?_) (rel_orElse
          (rel_map hblockEnd fun _ _ h => ?_) (rel_orElse
            (rel_map hloopBegin fun _ _ h => .loopBegin h)
            (rel_map hifBegin fun _ _ h => .ifBegin h)))
        · exact h ▸ .blockBegin _
        · exact h ▸ .blockEnd _

/-- The marker at the start of a text stays if the text is respaced behind its first character, and
    as much of the text belongs to it. -/
theorem marker?_respaced {next : Option Char} {d : Char} {s s' : List Char}
    (hs : Respaced looseRule next (some d) s s')
    (hnull : ∀ content, comment? (d :: s) = some content → '\x00' ∉ content) :
    Option.Rel (fun found found' => found.1.IsRespaced found'.1
        ∧ solidCount ((d :: s).take found.2) = solidCount ((d :: s').take found'.2))
      (marker? (d :: s)) (marker? (d :: s')) := by
  have hcomment := comment?_respaced hs
  unfold marker?
  generalize hcontent : comment? (d :: s) = o, hcontent' : comment? (d :: s') = o' at hcomment
  cases hcomment with
  | none => exact .none
  | @some content content' h =>
    have htrimmed := respacedContent_trimBlank h (hnull content hcontent)
    simp only [Option.bind_eq_bind, Option.bind_some]
    refine rel_bind (Marker.ofContent?_respaced htrimmed) fun m m' hm => ?_
    refine Option.Rel.some ⟨hm, ?_⟩
    dsimp only
    rw [take_of_comment? hcontent, take_of_comment? hcontent', solidCount_append,
      solidCount_append, solidCount_append, solidCount_append, h.solidCount_eq]

end BlockTemplate
