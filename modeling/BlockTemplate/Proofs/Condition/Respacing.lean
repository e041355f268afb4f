import Mathlib
import BlockTemplate.Condition.Postfix
import BlockTemplate.Proofs.Markup.RespacedMarkers
import BlockTemplate.Proofs.Text.Open
import BlockTemplate.Proofs.Text.Scanning

/-!
# Respaced conditions

A condition that is respaced keeps its tokens, as long as no word of it has another gap in it than
single spaces, and no gap with a line break or a tab stands behind a closing bracket, where it might
be dropped.

## Key results

- `scan_respaced`, `parse_respaced`: the tokens of a respaced condition
-/

namespace BlockTemplate

/-! ## Single spaces -/

/-- Whether there are no other gaps in a text than single spaces. -/
def isSingleSpaced : List Char → Bool
  | [] => true
  | c :: rest =>
    (!isSpacing c || (c == ' ' && !rest.head?.any isSpacing)) && isSingleSpaced rest

theorem isSingleSpaced_append {s t : List Char} (h : isSingleSpaced (s ++ t)) :
    isSingleSpaced s ∧ isSingleSpaced t := by
  induction s with
  | nil => exact ⟨rfl, h⟩
  | cons c s ih =>
    rw [List.cons_append, isSingleSpaced, Bool.and_eq_true] at h
    obtain ⟨hs, ht⟩ := ih h.2
    refine ⟨?_, ht⟩
    rw [isSingleSpaced, hs, Bool.and_true]
    cases s with
    | nil =>
      have hc := h.1
      rw [Bool.or_eq_true, Bool.and_eq_true] at hc
      simpa using hc.imp_right And.left
    | cons d s => simpa using h.1

theorem isSingleSpaced_append_cons {s t : List Char} {d : Char} (hs : isSingleSpaced s)
    (hd : isSpacing d = false) (ht : isSingleSpaced t) : isSingleSpaced (s ++ d :: t) := by
  induction s with
  | nil => rw [List.nil_append, isSingleSpaced, hd, ht]; rfl
  | cons c s ih =>
    rw [isSingleSpaced, Bool.and_eq_true] at hs
    rw [List.cons_append, isSingleSpaced, ih hs.2, Bool.and_true]
    cases s with
    | nil => simpa [hd] using hs.1
    | cons e s => simpa using hs.1

/-- A gap of single spaces is one space, or none. -/
theorem eq_of_isSingleSpaced {g : List Char} (hg : IsGap g) (h : isSingleSpaced g) :
    g = [] ∨ g = [' '] := by
  cases g with
  | nil => exact .inl rfl
  | cons c g =>
    obtain ⟨hc, hrest⟩ := isGap_cons.1 hg
    rw [isSingleSpaced, hc, Bool.not_true, Bool.false_or, Bool.and_eq_true, Bool.and_eq_true,
      beq_iff_eq] at h
    obtain ⟨⟨rfl, hhead⟩, -⟩ := h
    cases g with
    | nil => exact .inr rfl
    | cons d g => simp [(isGap_cons.1 hrest).1] at hhead

theorem KeepsGap.eq_of_isSingleSpaced {g g' : List Char} (h : KeepsGap g g') (hg : IsGap g)
    (hsingle : isSingleSpaced g) : g' = g := by
  obtain h | ⟨hne, hspace, -⟩ := h
  · exact h
  · rcases BlockTemplate.eq_of_isSingleSpaced hg hsingle with rfl | rfl
    · exact absurd rfl hne
    · exact absurd rfl hspace

/-! ## Gaps behind brackets -/

/-- Whether a line break or a tab stands in a gap behind a closing bracket; `after` tells whether
    the text is behind one. -/
def breaksAfterBracket (after : Bool) : List Char → Bool
  | [] => false
  | c :: rest =>
    (after && isBreak c) || breaksAfterBracket (c == '>' || (after && isSpacing c)) rest

theorem beq_bracket_of_isSpacing {c : Char} (hc : isSpacing c) : (c == '>') = false :=
  beq_false_of_ne (ne_of_isSpacing hc (by decide))

theorem breaksAfterBracket_gap_append {g : List Char} {d : Char} (hg : IsGap g)
    (hd : isSpacing d = false) (after : Bool) (t : List Char) :
    breaksAfterBracket after (g ++ d :: t)
      = ((after && g.any isBreak) || breaksAfterBracket (d == '>') t) := by
  induction g with
  | nil =>
    have hbreak : isBreak d = false := by
      rw [Bool.eq_false_iff]
      intro h
      rw [isSpacing_of_isBreak h] at hd
      exact nomatch hd
    simp [breaksAfterBracket, hbreak, hd]
  | cons c g ih =>
    obtain ⟨hc, hg⟩ := isGap_cons.1 hg
    rw [List.cons_append, breaksAfterBracket, beq_bracket_of_isSpacing hc, hc, Bool.and_true,
      Bool.false_or, ih hg, List.any_cons, Bool.and_or_distrib_left, Bool.or_assoc]

/-- Where no gap may be dropped, all gaps stay gaps. -/
theorem Respaced.keeping {previous : Option Char} {s s' : List Char}
    (hs : Respaced trimmedRule none previous s s')
    (h : breaksAfterBracket (previous == some '>') s = false) :
    Respaced keepingRule none previous s s' := by
  induction hs with
  | last hg hg' hrule =>
    obtain ⟨rfl, rfl⟩ := hrule.2 (.inr rfl)
    exact .last hg hg' (.refl _)
  | @cons previous g g' d t t' hg hg' hd hrule _ ih =>
    rw [breaksAfterBracket_gap_append hg hd, Bool.or_eq_false_iff] at h
    refine .cons hg hg' hd ?_ (ih h.2)
    obtain hkept | ⟨rfl, -, c, hc, hbreak⟩ := hrule.1
    · exact hkept
    · have hany : g.any isBreak := List.any_eq_true.2 ⟨c, hc, hbreak⟩
      rw [hany] at h
      exact nomatch h.1

/-! ## Blanks around operators -/

/-- Whether a negation in front of the text is an operator of its own. -/
def opensOperand (s : List Char) : Bool := s.head? == some '{' || s.head? == some '('

theorem isSpacing_eq_false_of_isQuote {c : Char} (h : isQuote c) : isSpacing c = false := by
  simp only [isQuote, Bool.or_eq_true, beq_iff_eq] at h
  rcases h with rfl | rfl <;> decide

theorem opensOperand_iff {s : List Char} :
    opensOperand s ↔ s.head? = some '{' ∨ s.head? = some '(' := by
  rw [opensOperand, Bool.or_eq_true, beq_iff_eq, beq_iff_eq]

theorem spaceOperatorsFrom_spacing {quote : Option Char} (hquote : ∀ q ∈ quote, isQuote q)
    (depth : Nat) {c : Char} (hc : isSpacing c) (s : List Char) :
    spaceOperatorsFrom quote depth (c :: s) = c :: spaceOperatorsFrom quote depth s := by
  have hne {d : Char} (hd : isSpacing d = false) : c ≠ d := ne_of_isSpacing hc hd
  cases quote with
  | some q =>
    have hq := isSpacing_eq_false_of_isQuote (hquote q rfl)
    simp only [spaceOperatorsFrom, if_neg (hne hq)]
  | none =>
    have hmark : isQuote c = false := by
      simp [isQuote, hne (d := '\'') (by decide), hne (d := '"') (by decide)]
    cases depth with
    | zero =>
      simp [spaceOperatorsFrom, hmark, hne (d := '{') (by decide), hne (d := '(') (by decide),
        hne (d := ')') (by decide), hne (d := '!') (by decide)]
    | succ depth =>
      simp [spaceOperatorsFrom, hne (d := '{') (by decide), hne (d := '}') (by decide)]

theorem spaceOperatorsFrom_gap {quote : Option Char} (hquote : ∀ q ∈ quote, isQuote q)
    (depth : Nat) {g : List Char} (hg : IsGap g) (s : List Char) :
    spaceOperatorsFrom quote depth (g ++ s) = g ++ spaceOperatorsFrom quote depth s := by
  induction g with
  | nil => rfl
  | cons c g ih =>
    obtain ⟨hc, hg⟩ := isGap_cons.1 hg
    rw [List.cons_append, spaceOperatorsFrom_spacing hquote depth hc, ih hg, List.cons_append]

/-- A character stays, perhaps with blanks around it, and what follows it matters only as far as it
    tells whether a negation is an operator of its own. -/
theorem exists_spaceOperatorsFrom_cons {quote : Option Char} (hquote : ∀ q ∈ quote, isQuote q)
    (depth : Nat) (d : Char) (opens : Bool) :
    ∃ before after quote' depth', IsGap before ∧ IsGap after ∧ (∀ q ∈ quote', isQuote q)
      ∧ ∀ s, opensOperand s = opens → spaceOperatorsFrom quote depth (d :: s)
        = before ++ d :: (after ++ spaceOperatorsFrom quote' depth' s) := by
  have hspace : IsGap [' '] := isGap_cons.2 ⟨by decide, isGap_nil⟩
  cases quote with
  -- within quotes and within tags, characters stay as they are
  | some q =>
    refine ⟨[], [], if d = q then none else some q, depth, isGap_nil, isGap_nil, ?_, ?_⟩
    · intro r hr
      split at hr
      · exact nomatch hr
      · exact hquote r hr
    · intro s _
      rfl
  | none =>
    cases depth with
    | succ depth =>
      let inner := if d = '{' then depth + 2 else if d = '}' then depth else depth + 1
      exact ⟨[], [], none, inner, isGap_nil, isGap_nil, by simp, fun s _ => rfl⟩
    | zero =>
      by_cases hmark : isQuote d
      · exact ⟨[], [], some d, 0, isGap_nil, isGap_nil, by simpa using hmark, fun s _ => by
          simp [spaceOperatorsFrom, hmark]⟩
      · by_cases hbrace : d = '{'
        · exact ⟨[], [], none, 1, isGap_nil, isGap_nil, by simp, fun s _ => by
            simp [spaceOperatorsFrom, hbrace, isQuote]⟩
        · -- parentheses, and negations in front of an operand, are set apart
          by_cases hapart : (d = '(' ∨ d = ')') ∨ (d = '!' ∧ opens)
          · refine ⟨[' '], [' '], none, 0, hspace, hspace, by simp, fun s hs => ?_⟩
            rw [← hs, opensOperand_iff] at hapart
            simp only [spaceOperatorsFrom, hmark, hbrace]
            rcases hapart with hparen | hnot
            · simp [hparen]
            · simp [hnot]
          · refine ⟨[], [], none, 0, isGap_nil, isGap_nil, by simp, fun s hs => ?_⟩
            rw [← hs, opensOperand_iff, not_or] at hapart
            simp [spaceOperatorsFrom, hmark, hbrace, hapart]

theorem opensOperand_of_isSpacing {c : Char} (hc : isSpacing c) (s : List Char) :
    opensOperand (c :: s) = false := by
  have hne {d : Char} (hd : isSpacing d = false) : c ≠ d := ne_of_isSpacing hc hd
  simp [opensOperand, hne (d := '{') (by decide), hne (d := '(') (by decide)]

theorem opensOperand_eq {next previous : Option Char} {s s' : List Char}
    (hs : Respaced keepingRule next previous s s') : opensOperand s = opensOperand s' := by
  have hfront {g g' t t' : List Char} (hg : IsGap g) (hg' : IsGap g') (hkept : KeepsGap g g')
      (ht : opensOperand t = opensOperand t') :
      opensOperand (g ++ t) = opensOperand (g' ++ t') := by
    cases g with
    | nil => rwa [hkept.eq_nil_iff.1 rfl]
    | cons c g =>
      cases g' with
      | nil => exact nomatch hkept.eq_nil_iff.2 rfl
      | cons c' g' =>
        rw [List.cons_append, List.cons_append, opensOperand_of_isSpacing (isGap_cons.1 hg).1,
          opensOperand_of_isSpacing (isGap_cons.1 hg').1]
  cases hs with
  | last hg hg' hrule =>
    rw [← List.append_nil s, ← List.append_nil s']
    exact hfront hg hg' hrule rfl
  | cons hg hg' hd hrule hs => exact hfront hg hg' hrule rfl

/-- The blanks around operators are put into the same places. -/
theorem spaceOperatorsFrom_respaced {quote : Option Char} (hquote : ∀ q ∈ quote, isQuote q)
    (depth : Nat) {next previous : Option Char} {s s' : List Char}
    (hs : Respaced keepingRule next previous s s') {g : List Char} (hg : IsGap g) :
    Respaced keepingRule next previous (g ++ spaceOperatorsFrom quote depth s)
      (g ++ spaceOperatorsFrom quote depth s') := by
  induction hs generalizing quote depth g with
  | last hgap hgap' hrule =>
    have hend {g : List Char} (hg : IsGap g) : spaceOperatorsFrom quote depth g = g := by
      have h := spaceOperatorsFrom_gap hquote depth hg []
      rw [List.append_nil] at h
      rw [h, spaceOperatorsFrom, List.append_nil]
    rw [hend hgap, hend hgap']
    exact .last (isGap_append.2 ⟨hg, hgap⟩) (isGap_append.2 ⟨hg, hgap'⟩)
      (.append (.refl g) hrule)
  | @cons _ h h' d t t' hgap hgap' hd hrule hs ih =>
    obtain ⟨before, after, quote', depth', hbefore, hafter, hquote', hspaced⟩ :=
      exists_spaceOperatorsFrom_cons hquote depth d (opensOperand t)
    -- the blanks that are put around the character make both gaps longer in the same way
    rw [spaceOperatorsFrom_gap hquote depth hgap, spaceOperatorsFrom_gap hquote depth hgap',
      hspaced t rfl, hspaced t' (opensOperand_eq hs).symm, ← List.append_assoc,
      ← List.append_assoc, ← List.append_assoc g h', ← List.append_assoc (g ++ h')]
    refine .cons ?_ ?_ hd ?_ (ih hquote' depth' hafter)
    · exact isGap_append.2 ⟨isGap_append.2 ⟨hg, hgap⟩, hbefore⟩
    · exact isGap_append.2 ⟨isGap_append.2 ⟨hg, hgap'⟩, hbefore⟩
    · exact .append (.append (.refl g) hrule) (.refl before)

/-! ## Words -/

theorem isSpacing_of_isConditionDelimiter {c : Char} (h : isConditionDelimiter c) :
    isSpacing c := by
  simp only [isConditionDelimiter, Bool.or_eq_true, beq_iff_eq] at h
  rcases h with ((rfl | rfl) | rfl) | rfl <;> decide

section
variable {n : Nesting} (hn : ∀ q ∈ n.quote, isQuote q)

include hn in
theorem quote_after (d : Char) : ∀ q ∈ (n.after d).quote, isQuote q := by
  intro q hq
  rw [Nesting.quote_after_eq] at hq
  cases hopen : n.quote with
  | none =>
    rw [hopen, quoteAfter] at hq
    split at hq
    · rename_i hd
      cases hq
      exact hd
    · exact nomatch hq
  | some p =>
    rw [hopen, quoteAfter] at hq
    split at hq
    · exact nomatch hq
    · exact hn q (hopen ▸ hq)

include hn in
/-- Blanks open and close nothing, and split words unless something is open. -/
theorem after_of_isSpacing {c : Char} (hc : isSpacing c) :
    n.after c = n ∧ splitsAtDelimiter isConditionDelimiter n c
      = (n.isPlain && isConditionDelimiter c) := by
  have hne {d : Char} (hd : isSpacing d = false) : c ≠ d := ne_of_isSpacing hc hd
  have hquote : isQuote c = false := by
    simp [isQuote, hne (d := '\'') (by decide), hne (d := '"') (by decide)]
  cases hopen : n.quote with
  | none =>
    have hbraces : (c != '{') = true ∧ (c != '}') = true :=
      ⟨bne_iff_ne.2 (hne (by decide)), bne_iff_ne.2 (hne (by decide))⟩
    simp [Nesting.after, splitsAtDelimiter, Nesting.isMark, hopen, hquote, hbraces,
      hne (d := '{') (by decide), hne (d := '}') (by decide), hne (d := '(') (by decide),
      hne (d := ')') (by decide)]
  | some q =>
    have hq := isSpacing_eq_false_of_isQuote (hn q hopen)
    simp [Nesting.after, splitsAtDelimiter, Nesting.isMark, Nesting.isPlain, hopen, hne hq]

end

/-- The word read so far is the start of a word. -/
theorem exists_prefix_mem_words (n : Nesting) (current s : List Char) :
    ∃ word ∈ wordsFrom isConditionDelimiter .keep n (some current) s, current.reverse <+: word := by
  induction s generalizing n current with
  | nil => exact ⟨current.reverse, List.mem_singleton.2 rfl, List.prefix_refl _⟩
  | cons c s ih =>
    cases hsplit : splitsAtDelimiter isConditionDelimiter n c with
    | true =>
      refine ⟨current.reverse, ?_, List.prefix_refl _⟩
      rw [wordsFrom_cons_of_splits hsplit]
      exact List.mem_append_left _ (List.mem_singleton.2 rfl)
    | false =>
      rw [wordsFrom_cons hsplit]
      obtain ⟨word, hword, hprefix⟩ := ih (n.after c) (c :: current)
      rw [List.reverse_cons] at hprefix
      exact ⟨word, hword, (List.prefix_append _ _).trans hprefix⟩

/-- A gap gives the words that end in it, and starts the next word perhaps. -/
theorem exists_wordsFrom_gap {n : Nesting} (hn : ∀ q ∈ n.quote, isQuote q) {g : List Char}
    (hg : IsGap g) (current : Option (List Char)) :
    ∃ front next, ∀ s, wordsFrom isConditionDelimiter .keep n current (g ++ s)
      = front ++ wordsFrom isConditionDelimiter .keep n next s := by
  induction g generalizing current with
  | nil => exact ⟨[], current, fun s => rfl⟩
  | cons c g ih =>
    obtain ⟨hc, hg⟩ := isGap_cons.1 hg
    have hafter := (after_of_isSpacing hn hc).1
    cases hsplit : splitsAtDelimiter isConditionDelimiter n c with
    | true =>
      obtain ⟨front, next, hfront⟩ := ih hg none
      refine ⟨(current.map List.reverse).toList ++ front, next, fun s => ?_⟩
      rw [List.cons_append, wordsFrom_cons_of_splits hsplit, hafter, hfront,
        List.append_assoc]
    | false =>
      obtain ⟨front, next, hfront⟩ := ih hg (some (c :: current.getD []))
      refine ⟨front, next, fun s => ?_⟩
      rw [List.cons_append, wordsFrom_cons hsplit, hafter, hfront]

/-- Delimiters end a word. -/
theorem wordsFrom_delimiters {n : Nesting} (hn : ∀ q ∈ n.quote, isQuote q) (hplain : n.isPlain)
    {g : List Char} (hne : g ≠ []) (hg : ∀ c ∈ g, isConditionDelimiter c)
    (current : Option (List Char)) (s : List Char) :
    wordsFrom isConditionDelimiter .keep n current (g ++ s)
      = (current.map List.reverse).toList ++ wordsFrom isConditionDelimiter .keep n none s := by
  induction g generalizing current with
  | nil => exact absurd rfl hne
  | cons c g ih =>
    obtain ⟨hc, hg⟩ := List.forall_mem_cons.1 hg
    obtain ⟨hafter, hsplit⟩ := after_of_isSpacing hn (isSpacing_of_isConditionDelimiter hc)
    rw [hplain, hc, Bool.true_and] at hsplit
    rw [List.cons_append, wordsFrom_cons_of_splits hsplit, hafter]
    cases g with
    | nil => rfl
    | cons d g => rw [ih (List.cons_ne_nil _ _) hg]; rfl

/-- A blank that is no delimiter is part of a word. -/
theorem exists_mem_words_of_not_delimiter {n : Nesting} (hn : ∀ q ∈ n.quote, isQuote q)
    {g : List Char} (hg : IsGap g) {c : Char} (hc : c ∈ g)
    (hsplit : splitsAtDelimiter isConditionDelimiter n c = false) (current : Option (List Char))
    (s : List Char) :
    ∃ word ∈ wordsFrom isConditionDelimiter .keep n current (g ++ s), c ∈ word := by
  induction g generalizing current with
  | nil => exact absurd hc List.not_mem_nil
  | cons d g ih =>
    obtain ⟨hd, hg⟩ := isGap_cons.1 hg
    have hafter := (after_of_isSpacing hn hd).1
    rw [List.cons_append]
    -- by induction along the gap: some characters of it may be delimiters, but not all of them
    cases hsplit' : splitsAtDelimiter isConditionDelimiter n d with
    | true =>
      have hne : c ≠ d := by
        rintro rfl
        rw [hsplit] at hsplit'
        exact nomatch hsplit'
      obtain ⟨word, hword, hmem⟩ := ih hg (List.mem_of_ne_of_mem hne hc) none
      rw [wordsFrom_cons_of_splits hsplit', hafter]
      exact ⟨word, List.mem_append_right _ hword, hmem⟩
    | false =>
      rw [wordsFrom_cons hsplit', hafter]
      rcases List.mem_cons.1 hc with rfl | hc
      · obtain ⟨word, hword, hprefix⟩ := exists_prefix_mem_words n (c :: current.getD []) (g ++ s)
        refine ⟨word, hword, hprefix.subset ?_⟩
        rw [List.mem_reverse]
        exact List.mem_cons_self
      · exact ih hg hc (some (d :: current.getD []))

/-- Where nothing splits words, all of a gap is part of a word. -/
theorem exists_mem_words_of_gap {n : Nesting} (hn : ∀ q ∈ n.quote, isQuote q)
    (hplain : n.isPlain = false) {g : List Char} (hne : g ≠ []) (hg : IsGap g)
    (current : Option (List Char)) (s : List Char) :
    ∃ word ∈ wordsFrom isConditionDelimiter .keep n current (g ++ s), g <:+: word := by
  have hover : Nesting.RunsOver (splitsAtDelimiter isConditionDelimiter) n g :=
    Nesting.runsOver_of_forall (fun c hc => (after_of_isSpacing hn (hg c hc)).1) fun c hc => by
      rw [(after_of_isSpacing hn (hg c hc)).2, hplain, Bool.false_and]
  rw [wordsFrom_append hne hover]
  obtain ⟨word, hword, hprefix⟩ :=
    exists_prefix_mem_words (n.afterText g) (g.reverse ++ current.getD []) s
  rw [List.reverse_append, List.reverse_reverse] at hprefix
  exact ⟨word, hword, (List.suffix_append _ _).isInfix.trans hprefix.isInfix⟩

theorem isSingleSpaced_of_isInfix {s t : List Char} (h : isSingleSpaced t) (hs : s <:+: t) :
    isSingleSpaced s := by
  obtain ⟨before, after, rfl⟩ := hs
  exact (isSingleSpaced_append (isSingleSpaced_append h).1).2

theorem eq_space_of_mem {s : List Char} (h : isSingleSpaced s) {c : Char} (hc : c ∈ s)
    (hspacing : isSpacing c) : c = ' ' := by
  obtain ⟨before, after, rfl⟩ := List.append_of_mem hc
  have hhere := (isSingleSpaced_append h).2
  rw [isSingleSpaced, hspacing, Bool.not_true, Bool.false_or, Bool.and_eq_true, Bool.and_eq_true,
    beq_iff_eq] at hhere
  exact hhere.1.1

/-- A gap that stays a gap gives the same words, if it is no part of a word or single spaces. -/
theorem wordsFrom_gap_respaced {n : Nesting} (hn : ∀ q ∈ n.quote, isQuote q) {g g' : List Char}
    (hg : IsGap g) (hkept : KeepsGap g g') (current : Option (List Char)) {s s' : List Char}
    (hs : ∀ current, (wordsFrom isConditionDelimiter .keep n current s).all isSingleSpaced →
      wordsFrom isConditionDelimiter .keep n current s'
        = wordsFrom isConditionDelimiter .keep n current s)
    (h : (wordsFrom isConditionDelimiter .keep n current (g ++ s)).all isSingleSpaced) :
    wordsFrom isConditionDelimiter .keep n current (g' ++ s')
      = wordsFrom isConditionDelimiter .keep n current (g ++ s) := by
  have hword {word : List Char}
      (hmem : word ∈ wordsFrom isConditionDelimiter .keep n current (g ++ s)) :
      isSingleSpaced word := List.all_eq_true.1 h word hmem
  by_cases heq : g' = g
  · obtain ⟨front, next, hfront⟩ := exists_wordsFrom_gap hn hg current
    rw [hfront, List.all_append, Bool.and_eq_true] at h
    rw [heq, hfront, hfront, hs next h.2]
  · -- a gap that changes is more than a single space, so that it is no part of a word
    obtain heq' | ⟨hne, hspace, hne', hsub⟩ := hkept
    · exact absurd heq' heq
    have hplain : n.isPlain := by
      rw [← Bool.not_eq_false]
      intro hplain
      obtain ⟨word, hmem, hinfix⟩ := exists_mem_words_of_gap hn hplain hne hg current s
      rcases eq_of_isSingleSpaced hg (isSingleSpaced_of_isInfix (hword hmem) hinfix) with h | h
      · exact hne h
      · exact hspace h
    have hdelimiters : ∀ c ∈ g, isConditionDelimiter c := by
      intro c hc
      have hsplit := (after_of_isSpacing hn (hg c hc)).2
      rw [hplain, Bool.true_and] at hsplit
      rw [← Bool.not_eq_false, ← hsplit]
      intro hfalse
      obtain ⟨word, hmem, hcword⟩ := exists_mem_words_of_not_delimiter hn hg hc hfalse current s
      rw [eq_space_of_mem (hword hmem) hcword (hg c hc)] at hfalse
      have hsplit' := (after_of_isSpacing hn (c := ' ') (by decide)).2
      rw [hfalse, hplain] at hsplit'
      exact nomatch hsplit'
    have hdelimiters' : ∀ c ∈ g', isConditionDelimiter c := by
      intro c hc
      rcases List.mem_cons.1 (hsub hc) with rfl | hc
      · decide
      · exact hdelimiters c hc
    rw [wordsFrom_delimiters hn hplain hne hdelimiters, List.all_append, Bool.and_eq_true] at h
    rw [wordsFrom_delimiters hn hplain hne hdelimiters,
      wordsFrom_delimiters hn hplain hne' hdelimiters', hs none h.2]

/-- The words of a text of which only gaps between words change. -/
theorem wordsFrom_respaced {n : Nesting} (hn : ∀ q ∈ n.quote, isQuote q)
    {next previous : Option Char} {s s' : List Char}
    (hs : Respaced keepingRule next previous s s') (current : Option (List Char))
    (h : (wordsFrom isConditionDelimiter .keep n current s).all isSingleSpaced) :
    wordsFrom isConditionDelimiter .keep n current s'
      = wordsFrom isConditionDelimiter .keep n current s := by
  induction hs generalizing n current with
  | @last _ g g' hg hg' hrule =>
    rw [← List.append_nil g] at h ⊢
    rw [← List.append_nil g']
    exact wordsFrom_gap_respaced hn hg hrule current (fun _ _ => rfl) h
  | @cons _ g g' d t t' hg hg' hd hrule _ ih =>
    refine wordsFrom_gap_respaced hn hg hrule current (fun current h => ?_) h
    have hsplit : splitsAtDelimiter isConditionDelimiter n d = false := by
      rw [splitsAtDelimiter, Bool.and_eq_false_iff]
      refine .inr (Bool.eq_false_iff.2 fun hdelimiter => ?_)
      rw [isSpacing_of_isConditionDelimiter hdelimiter] at hd
      cases hd
    rw [wordsFrom_cons hsplit] at h ⊢
    rw [wordsFrom_cons hsplit, ih (quote_after hn d) _ h]

/-! ## Tokens -/

/-- Whether the words of a condition stay when it is respaced. -/
def keepsWords (condition : List Char) : Bool :=
  (words isConditionDelimiter .keep (spaceOperators condition)).all isSingleSpaced
    && !breaksAfterBracket false condition

/-- The tokens of a respaced condition. -/
theorem scan_respaced {condition condition' : List Char}
    (hs : RespacedContent none condition condition') (h : keepsWords condition) :
    Token.scan condition' = Token.scan condition := by
  rw [keepsWords, Bool.and_eq_true, Bool.not_eq_true'] at h
  obtain ⟨hwords, hbreaks⟩ := h
  have hkept : Respaced keepingRule none none condition condition' := hs.respaced.keeping hbreaks
  have hspaced : Respaced keepingRule none none (spaceOperators condition)
      (spaceOperators condition') := spaceOperatorsFrom_respaced (by simp) 0 hkept isGap_nil
  have hsame := wordsFrom_respaced (n := .outside) (by simp [Nesting.outside]) hspaced none hwords
  exact congrArg (List.map Token.ofWord) hsame

theorem parse_respaced {condition condition' : List Char}
    (hs : RespacedContent none condition condition') (h : keepsWords condition)
    {parsed : Condition} (hparse : Condition.parse condition = .ok parsed) :
    ∃ parsed', Condition.parse condition' = .ok parsed' ∧ parsed'.tokens = parsed.tokens := by
  unfold Condition.parse at hparse ⊢
  rw [scan_respaced hs h]
  split at hparse
  · cases hparse
    exact ⟨_, rfl, rfl⟩
  · cases hparse

end BlockTemplate
