import Mathlib
import BlockTemplate.Proofs.Condition.Respacing

/-!
# The words of a condition

Blanks are put around the operators of a condition before it is split into words. The first scanner
knows nothing of quotes within a tag, the second one does. Where they find the same tags, the words
are those into which the condition itself splits, with operators as words of their own. They may be
others where a brace in the quotes of a tag lacks its partner.

## Key results

- `conditionWords`: the words of a condition, split in one go
- `words_spaceOperators_of_tagsAgree`: they are the words behind the blanks, and none of them cuts a
  quoted section or a tag
- `tagsAgree_of_forall`: tags agree if there is no brace in their quotes
- `tagsAgree_iff`: that tags agree is the weakest condition
-/

namespace BlockTemplate

/-! ## Splitting in one go -/

/-- Whether a character is a word of its own, as a parenthesis is, and a negation in front of an
    operand, where neither a quote nor a brace is open. -/
def standsAlone (n : Nesting) (c : Char) (rest : List Char) : Bool :=
  n.isPlain && (c == '(' || c == ')' || (c == '!' && opensOperand rest))

/-- The words of a condition, the first of which starts with `current`, given backwards. -/
def conditionWordsFrom (n : Nesting) (current : Option (List Char)) :
    List Char → List (List Char)
  | [] => (current.map List.reverse).toList
  | c :: rest =>
    if standsAlone n c rest then
      (current.map List.reverse).toList ++ [c] :: conditionWordsFrom (n.after c) none rest
    else if splitsAtDelimiter isConditionDelimiter n c then
      (current.map List.reverse).toList ++ conditionWordsFrom (n.after c) none rest
    else conditionWordsFrom (n.after c) (some (c :: current.getD [])) rest

/-- The words of a condition. -/
def conditionWords (s : List Char) : List (List Char) := conditionWordsFrom .outside none s

/-- Whether a character is part of no quoted section and of no tag. -/
def isExposed (n : Nesting) (c : Char) : Bool := n.isPlain && !isQuote c && c != '{'

section
variable {n : Nesting} {c : Char}

theorem standsAlone_of_not_isExposed (h : isExposed n c = false) (rest : List Char) :
    standsAlone n c rest = false := by
  by_contra halone
  simp only [standsAlone, Bool.not_eq_false, Bool.and_eq_true, Bool.or_eq_true,
    beq_iff_eq] at halone
  obtain ⟨hplain, (rfl | rfl) | ⟨rfl, -⟩⟩ := halone <;> simp [isExposed, hplain, isQuote] at h

theorem splitsAtDelimiter_of_not_isExposed (h : isExposed n c = false)
    (isDelimiter : Char → Bool) : splitsAtDelimiter isDelimiter n c = false := by
  by_contra hsplits
  simp only [splitsAtDelimiter, Bool.not_eq_false, Bool.and_eq_true, Bool.not_eq_true'] at hsplits
  obtain ⟨⟨⟨⟨hplain, hmark⟩, hbrace⟩, -⟩, -⟩ := hsplits
  have hquote : n.quote = none := by
    rw [Nesting.isPlain, Bool.and_eq_true, Option.isNone_iff_eq_none] at hplain
    exact hplain.1
  rw [Nesting.isMark, hquote] at hmark
  simp [isExposed, hplain, hmark, hbrace] at h

theorem conditionWordsFrom_cons_of_not_isExposed (h : isExposed n c = false)
    (current : Option (List Char)) (rest : List Char) :
    conditionWordsFrom n current (c :: rest)
      = conditionWordsFrom (n.after c) (some (c :: current.getD [])) rest := by
  rw [conditionWordsFrom, standsAlone_of_not_isExposed h, splitsAtDelimiter_of_not_isExposed h,
    if_neg Bool.false_ne_true, if_neg Bool.false_ne_true]

theorem conditionWordsFrom_append_of_runsOver {part : List Char} (hne : part ≠ [])
    (h : Nesting.RunsOver isExposed n part) (current : Option (List Char)) (rest : List Char) :
    conditionWordsFrom n current (part ++ rest)
      = conditionWordsFrom (n.afterText part) (some (part.reverse ++ current.getD [])) rest := by
  induction part generalizing n current with
  | nil => exact absurd rfl hne
  | cons c part ih =>
    rw [List.cons_append, conditionWordsFrom_cons_of_not_isExposed h.1, Nesting.afterText_cons]
    cases part with
    | nil => rfl
    | cons d part =>
      rw [ih (List.cons_ne_nil _ _) h.2, Option.getD_some, List.reverse_cons (a := c),
        List.append_assoc, List.singleton_append]

end

/-- The words behind a part of the condition, and the word that is being read there. -/
theorem exists_conditionWordsFrom_append (n : Nesting) (current : Option (List Char))
    (s rest : List Char) :
    ∃ done current', conditionWordsFrom n current (s ++ rest)
      = done ++ conditionWordsFrom (n.afterText s) current' rest := by
  induction s generalizing n current with
  | nil => exact ⟨[], current, rfl⟩
  | cons c s ih =>
    rw [List.cons_append, conditionWordsFrom, Nesting.afterText_cons]
    split
    · obtain ⟨done, current', h⟩ := ih (n.after c) none
      exact ⟨(current.map List.reverse).toList ++ [c] :: done, current', by simp [h]⟩
    · split
      · obtain ⟨done, current', h⟩ := ih (n.after c) none
        exact ⟨(current.map List.reverse).toList ++ done, current', by simp [h]⟩
      · exact ih _ _

/-- The word that is being read goes on. -/
theorem exists_mem_conditionWordsFrom (n : Nesting) (current s : List Char) :
    ∃ w ∈ conditionWordsFrom n (some current) s, current.reverse <+: w := by
  induction s generalizing n current with
  | nil => exact ⟨current.reverse, List.mem_singleton_self _, List.prefix_refl _⟩
  | cons c s ih =>
    rw [conditionWordsFrom]
    split
    · exact ⟨current.reverse, by simp, List.prefix_refl _⟩
    · split
      · exact ⟨current.reverse, by simp, List.prefix_refl _⟩
      · obtain ⟨w, hw, hprefix⟩ := ih (n.after c) (c :: current)
        rw [List.reverse_cons] at hprefix
        exact ⟨w, hw, (List.prefix_append _ _).trans hprefix⟩

/-- No word cuts a quoted section or a tag. -/
theorem exists_mem_conditionWords {before part after : List Char} (hne : part ≠ [])
    (h : Nesting.RunsOver isExposed (Nesting.outside.afterText before) part) :
    ∃ w ∈ conditionWords (before ++ (part ++ after)), part <:+: w := by
  obtain ⟨done, current, hdone⟩ :=
    exists_conditionWordsFrom_append .outside none before (part ++ after)
  rw [conditionWords, hdone, conditionWordsFrom_append_of_runsOver hne h]
  obtain ⟨w, hw, hprefix⟩ := exists_mem_conditionWordsFrom
    ((Nesting.outside.afterText before).afterText part) (part.reverse ++ current.getD []) after
  refine ⟨w, List.mem_append_right _ hw, ?_⟩
  rw [List.reverse_append, List.reverse_reverse] at hprefix
  exact (List.suffix_append _ _).isInfix.trans hprefix.isInfix

/-! ## The tags that the two scanners find -/

/-- The open braces behind a character, if those in the quotes of a tag count as well. -/
def tagDepthAfter (n : Nesting) (depth : Nat) (c : Char) : Nat :=
  if depth = 0 ∧ n.quote.isSome then 0
  else if c = '{' then depth + 1
  else if c = '}' then depth - 1
  else depth

/-- Whether the rest of a condition is within a tag at the same places, no matter whether the braces
    in the quotes of the tag count. -/
def tagsAgreeFrom (n : Nesting) (depth : Nat) : List Char → Bool
  | [] => true
  | c :: rest =>
    ((n.after c).braces == 0) == (tagDepthAfter n depth c == 0)
      && tagsAgreeFrom (n.after c) (tagDepthAfter n depth c) rest

/-- Whether the tags of a condition end at the same places, no matter whether the braces in their
    quotes count. -/
def tagsAgree (s : List Char) : Bool := tagsAgreeFrom .outside 0 s

theorem tagsAgreeFrom_cons {n : Nesting} {depth : Nat} {c : Char} {rest : List Char} :
    tagsAgreeFrom n depth (c :: rest)
      ↔ (tagDepthAfter n depth c = 0 ↔ (n.after c).braces = 0)
        ∧ tagsAgreeFrom (n.after c) (tagDepthAfter n depth c) rest := by
  rw [tagsAgreeFrom, Bool.and_eq_true, beq_iff_eq, Bool.eq_iff_iff, beq_iff_eq, beq_iff_eq,
    Iff.comm (a := tagDepthAfter n depth c = 0)]

theorem Nesting.braces_after (n : Nesting) {c : Char} (hopen : c ≠ '{') (hclose : c ≠ '}') :
    (n.after c).braces = n.braces := by
  grind [Nesting.after]

theorem tagsAgreeFrom_of_forall {n : Nesting} {s : List Char}
    (h : ∀ before c after, s = before ++ c :: after → (n.afterText before).quote.isSome →
      (n.afterText before).braces ≠ 0 → c ≠ '{' ∧ c ≠ '}') :
    tagsAgreeFrom n n.braces s := by
  induction s generalizing n with
  | nil => rfl
  | cons c s ih =>
    have hhere := h [] c s rfl
    have hdepth : tagDepthAfter n n.braces c = (n.after c).braces := by
      grind [tagDepthAfter, Nesting.after, Nesting.afterText_nil, isQuote]
    rw [tagsAgreeFrom_cons, hdepth]
    refine ⟨Iff.rfl, ih fun before d after hs => ?_⟩
    exact h (c :: before) d after (by rw [hs, List.cons_append])

/-- The tags of a condition agree if there is no brace in their quotes. -/
theorem tagsAgree_of_forall {s : List Char}
    (h : ∀ before c after, s = before ++ c :: after →
      (Nesting.outside.afterText before).quote.isSome →
      (Nesting.outside.afterText before).braces ≠ 0 → c ≠ '{' ∧ c ≠ '}') : tagsAgree s :=
  tagsAgreeFrom_of_forall h

/-- The quote that is open outside of tags. -/
def Nesting.outerQuote (n : Nesting) : Option Char := if n.braces = 0 then n.quote else none

/-- A tag that ends leaves no quote open, and one that goes on hides them. -/
theorem outerQuote_after {n : Nesting} (hn : n.braces ≠ 0) (c : Char) :
    (n.after c).outerQuote = none := by
  obtain ⟨quote, braces, parens⟩ := n
  cases quote with
  | some q =>
    -- no brace closes within quotes
    have hafter : (Nesting.after ⟨some q, braces, parens⟩ c).braces = braces := by
      simp only [Nesting.after]
      split <;> rfl
    rw [Nesting.outerQuote, hafter, if_neg hn]
  | none => grind [Nesting.after, Nesting.outerQuote]

/-- Where the scanners agree on tags, blanks are put around the characters that stand alone. -/
theorem spaceOperatorsFrom_cons {n : Nesting} {depth : Nat} (h : depth = 0 ↔ n.braces = 0)
    (c : Char) (rest : List Char) :
    spaceOperatorsFrom n.outerQuote depth (c :: rest)
      = (if standsAlone n c rest then [' ', c, ' '] else [c])
        ++ spaceOperatorsFrom (n.after c).outerQuote (tagDepthAfter n depth c) rest := by
  -- within a tag, however deep, no character stands alone; outside of tags the quote decides
  cases depth with
  | succ depth =>
    have hbraces : n.braces ≠ 0 := mt h.2 (Nat.succ_ne_zero depth)
    have hinside : standsAlone n c rest = false := by
      simp [standsAlone, Nesting.isPlain, hbraces]
    have hquote : n.outerQuote = none := if_neg hbraces
    rw [hquote, outerQuote_after hbraces, hinside]
    simp [spaceOperatorsFrom, tagDepthAfter]
  | zero =>
    have hbraces : n.braces = 0 := h.1 rfl
    obtain ⟨quote, _, parens⟩ := n
    obtain rfl : _ = 0 := hbraces
    cases quote with
    | some q =>
      by_cases hc : c = q <;>
        simp [spaceOperatorsFrom, tagDepthAfter, standsAlone, Nesting.isPlain, Nesting.outerQuote,
          Nesting.after, hc]
    | none =>
      grind [spaceOperatorsFrom, tagDepthAfter, standsAlone, Nesting.isPlain, Nesting.outerQuote,
        Nesting.after, isQuote, opensOperand]

/-- The words that are read once blanks are put around the operators. -/
def spacedWordsFrom (n : Nesting) (depth : Nat) (current : Option (List Char)) (s : List Char) :
    List (List Char) :=
  wordsFrom isConditionDelimiter .keep n current (spaceOperatorsFrom n.outerQuote depth s)

section
variable {n : Nesting} {depth : Nat}

/-- A character that stands alone becomes a word between its blanks. -/
theorem wordsFrom_between_blanks {c : Char} {rest : List Char} (h : standsAlone n c rest)
    (current : Option (List Char)) (s : List Char) :
    wordsFrom isConditionDelimiter .keep n current (' ' :: c :: ' ' :: s)
      = (current.map List.reverse).toList
        ++ [c] :: wordsFrom isConditionDelimiter .keep (n.after c) none s := by
  rw [standsAlone, Bool.and_eq_true] at h
  obtain ⟨hplain, hc⟩ := h
  have hblank {m : Nesting} (hm : m.isPlain) :
      splitsAtDelimiter isConditionDelimiter m ' ' ∧ m.after ' ' = m := by
    grind [splitsAtDelimiter, Nesting.isPlain, Nesting.isMark, Nesting.after, isQuote,
      isConditionDelimiter]
  have hword : splitsAtDelimiter isConditionDelimiter n c = false ∧ (n.after c).isPlain := by
    obtain ⟨quote, braces, parens⟩ := n
    simp only [Nesting.isPlain, Bool.and_eq_true, Option.isNone_iff_eq_none, beq_iff_eq] at hplain
    obtain ⟨rfl, rfl⟩ := hplain
    simp only [Bool.or_eq_true, Bool.and_eq_true, beq_iff_eq] at hc
    obtain (rfl | rfl) | ⟨rfl, -⟩ := hc <;> exact ⟨rfl, rfl⟩
  have hbefore := hblank hplain
  have hafter := hblank hword.2
  rw [wordsFrom_cons_of_splits hbefore.1, hbefore.2, wordsFrom_cons hword.1,
    wordsFrom_cons_of_splits hafter.1, hafter.2]
  rfl

theorem spacedWordsFrom_cons (h : depth = 0 ↔ n.braces = 0) (current : Option (List Char))
    (c : Char) (rest : List Char) :
    spacedWordsFrom n depth current (c :: rest)
      = if standsAlone n c rest then
          (current.map List.reverse).toList
            ++ [c] :: spacedWordsFrom (n.after c) (tagDepthAfter n depth c) none rest
        else if splitsAtDelimiter isConditionDelimiter n c then
          (current.map List.reverse).toList
            ++ spacedWordsFrom (n.after c) (tagDepthAfter n depth c) none rest
        else
          spacedWordsFrom (n.after c) (tagDepthAfter n depth c) (some (c :: current.getD []))
            rest := by
  rw [spacedWordsFrom, spaceOperatorsFrom_cons h]
  split
  · rename_i halone
    exact wordsFrom_between_blanks halone current _
  · split
    · rename_i hsplits
      exact wordsFrom_cons_of_splits hsplits current _
    · rename_i hsplits
      exact wordsFrom_cons (Bool.eq_false_iff.2 hsplits) current _

/-- As long as the scanners agree on tags, they find the words of the condition. -/
theorem spacedWordsFrom_eq (h : depth = 0 ↔ n.braces = 0) {s : List Char}
    (hs : tagsAgreeFrom n depth s) (current : Option (List Char)) :
    spacedWordsFrom n depth current s = conditionWordsFrom n current s := by
  induction s generalizing n depth current with
  | nil => rfl
  | cons c s ih =>
    obtain ⟨hnext, hs⟩ := tagsAgreeFrom_cons.1 hs
    rw [spacedWordsFrom_cons h, conditionWordsFrom, ih hnext hs, ih hnext hs]

end

/-- If the braces in the quotes of its tags change nothing about where the tags end, a condition
    with blanks around its operators has the words into which it splits itself, and none of them
    cuts a quoted section or a tag. -/
theorem words_spaceOperators_of_tagsAgree {s : List Char} (hs : tagsAgree s) :
    words isConditionDelimiter .keep (spaceOperators s) = conditionWords s
      ∧ ∀ before part after, s = before ++ (part ++ after) → part ≠ []
        → Nesting.RunsOver isExposed (Nesting.outside.afterText before) part
        → ∃ w ∈ words isConditionDelimiter .keep (spaceOperators s), part <:+: w := by
  have hwords : words isConditionDelimiter .keep (spaceOperators s) = conditionWords s :=
    spacedWordsFrom_eq ⟨fun _ => rfl, fun _ => rfl⟩ hs none
  refine ⟨hwords, ?_⟩
  rintro before part after rfl hne hpart
  rw [hwords]
  exact exists_mem_conditionWords hne hpart

/-- A negated group, and in it a tag with an argument that holds a tag and parentheses. -/
def quotedTag : List Char := "!(\x7bA|f('\x7bB\x7d ) (')\x7d OR \"x (y\")".toList

theorem words_spaceOperators_of_tagsAgree_quotedTag :
    tagsAgree quotedTag
      ∧ words isConditionDelimiter .keep (spaceOperators quotedTag)
        = ["!", "(", "\x7bA|f('\x7bB\x7d ) (')\x7d", "OR", "\"x (y\"", ")"].map String.toList
      ∧ ∃ w ∈ words isConditionDelimiter .keep (spaceOperators quotedTag),
        "'\x7bB\x7d ) ('".toList <:+: w := by
  have h := words_spaceOperators_of_tagsAgree (s := quotedTag) (by decide)
  refine ⟨by decide, h.1.trans (by decide), ?_⟩
  exact h.2 "!(\x7bA|f(".toList _ ")\x7d OR \"x (y\")".toList (by decide) (by decide)
    ⟨rfl, rfl, rfl, rfl, rfl, rfl, rfl, rfl, rfl, trivial⟩

/-- A tag with a closing brace in one of its arguments, and a parenthesis in the next one. -/
def quotedBrace : List Char := "\x7bA|f('\x7d','(')\x7d".toList

/-- Blanks are put into the second argument. -/
theorem words_spaceOperators_ne :
    words isConditionDelimiter .keep (spaceOperators quotedBrace)
        = ["\x7bA|f('\x7d',' ( ')\x7d".toList]
      ∧ conditionWords quotedBrace = [quotedBrace]
      ∧ words isConditionDelimiter .keep (spaceOperators quotedBrace)
        ≠ conditionWords quotedBrace := by
  decide

/-! ## The words of all starts of a condition -/

section
variable {n : Nesting} {depth : Nat}

/-- Where the scanners do not agree on tags, a parenthesis tells them apart. -/
theorem spacedWordsFrom_paren_ne (hquote : n.outerQuote = none)
    (h : ¬(depth = 0 ↔ n.braces = 0)) (current : List Char) :
    spacedWordsFrom n depth (some current) ['('] ≠ conditionWordsFrom n (some current) ['('] := by
  intro heq
  rw [spacedWordsFrom, hquote] at heq
  by_cases hbraces : n.braces = 0
  · rw [Nesting.outerQuote, if_pos hbraces] at hquote
    have halone : standsAlone n '(' [] = true := by simp [standsAlone, Nesting.isPlain, *]
    cases depth with
    | zero => exact h ⟨fun _ => hbraces, fun _ => rfl⟩
    | succ depth =>
      have hlength := congrArg List.length heq
      simp [spaceOperatorsFrom, wordsFrom, isConditionDelimiter, conditionWordsFrom,
        halone] at hlength
  · obtain rfl : depth = 0 := by
      by_contra hdepth
      exact h ⟨fun hzero => absurd hzero hdepth, fun hzero => absurd hzero hbraces⟩
    -- the blanks around the parenthesis stay within the tag
    have hinside {m : Nesting} (hm : m.braces = n.braces) (c : Char) :
        isExposed m c = false := by
      simp [isExposed, Nesting.isPlain, hm, hbraces]
    have hafter {m : Nesting} (hm : m.braces = n.braces) {c : Char} (hc : c ≠ '{' ∧ c ≠ '}') :
        (m.after c).braces = n.braces := (m.braces_after hc.1 hc.2).trans hm
    have hblank := hafter rfl (c := ' ') (by decide)
    have hparen := hafter hblank (c := '(') (by decide)
    have hruns : Nesting.RunsOver (splitsAtDelimiter isConditionDelimiter) n [' ', '(', ' '] :=
      ⟨splitsAtDelimiter_of_not_isExposed (hinside rfl _) _,
        splitsAtDelimiter_of_not_isExposed (hinside hblank _) _,
        splitsAtDelimiter_of_not_isExposed (hinside hparen _) _, trivial⟩
    have hwords := @wordsFrom_append _ _ (some current) _ (List.cons_ne_nil _ _) hruns []
    rw [List.append_nil] at hwords
    have hspaced : spaceOperatorsFrom none 0 ['('] = [' ', '(', ' '] := rfl
    rw [hspaced, hwords, conditionWordsFrom_cons_of_not_isExposed (hinside rfl _)] at heq
    have hlength := congrArg (List.map List.length) heq
    simp [wordsFrom, conditionWordsFrom] at hlength

/-- Only a closing brace of a tag can set the scanners apart. -/
theorem eq_closeBrace_of_tagDepthAfter {c : Char} (h : depth = 0 ↔ n.braces = 0)
    (hdiffer : ¬(tagDepthAfter n depth c = 0 ↔ (n.after c).braces = 0)) :
    c = '}' ∧ n.braces ≠ 0 := by
  grind [tagDepthAfter, Nesting.after, isQuote]

/-- If all starts of a condition have the words into which they split themselves, wherever a
    parenthesis follows, then the scanners agree on tags. -/
theorem tagsAgreeFrom_of_forall_prefix (h : depth = 0 ↔ n.braces = 0) {s : List Char}
    (heq : ∀ p, p <+: s → ∃ current,
      spacedWordsFrom n depth current (p ++ ['(']) = conditionWordsFrom n current (p ++ ['('])) :
    tagsAgreeFrom n depth s := by
  induction s generalizing n depth with
  | nil => rfl
  | cons c s ih =>
    have hnext : tagDepthAfter n depth c = 0 ↔ (n.after c).braces = 0 := by
      by_contra hdiffer
      obtain ⟨rfl, hbraces⟩ := eq_closeBrace_of_tagDepthAfter h hdiffer
      obtain ⟨current, hwords⟩ := heq ['}'] (List.prefix_append ['}'] s)
      have hinside : isExposed n '}' = false := by simp [isExposed, Nesting.isPlain, hbraces]
      rw [List.singleton_append, spacedWordsFrom_cons h, standsAlone_of_not_isExposed hinside,
        splitsAtDelimiter_of_not_isExposed hinside, if_neg Bool.false_ne_true,
        if_neg Bool.false_ne_true, conditionWordsFrom_cons_of_not_isExposed hinside] at hwords
      exact spacedWordsFrom_paren_ne (outerQuote_after hbraces '}') hdiffer _ hwords
    have hrest := ih hnext fun p hp => by
      obtain ⟨current, hwords⟩ := heq (c :: p) (List.prefix_cons_inj c |>.2 hp)
      rw [List.cons_append, spacedWordsFrom_cons h, conditionWordsFrom] at hwords
      -- what the character adds to the words is the same on both sides
      split at hwords
      · exact ⟨none, (List.cons.inj (List.append_cancel_left hwords)).2⟩
      · split at hwords
        · exact ⟨none, List.append_cancel_left hwords⟩
        · exact ⟨_, hwords⟩
    exact tagsAgreeFrom_cons.2 ⟨hnext, hrest⟩

/-- A parenthesis behind a start of a condition changes nothing about its tags. -/
theorem tagsAgreeFrom_append_paren (h : depth = 0 ↔ n.braces = 0) {p s : List Char}
    (hp : p <+: s) (hs : tagsAgreeFrom n depth s) : tagsAgreeFrom n depth (p ++ ['(']) := by
  induction p generalizing n depth s with
  | nil =>
    have hbraces : (n.after '(').braces = n.braces := n.braces_after (by decide) (by decide)
    have hdepth : tagDepthAfter n depth '(' = depth := by
      rw [tagDepthAfter]
      split
      · rename_i hzero
        exact hzero.1.symm
      · rfl
    rw [List.nil_append, tagsAgreeFrom_cons, hbraces, hdepth]
    exact ⟨h, rfl⟩
  | cons c p ih =>
    obtain ⟨t, rfl⟩ := hp
    rw [List.cons_append, tagsAgreeFrom_cons] at hs ⊢
    exact ⟨hs.1, ih hs.1 (List.prefix_append p t) hs.2⟩

end

/-- The tags of a condition agree if and only if all its starts have the words into which they split
    themselves, wherever a parenthesis follows. -/
theorem tagsAgree_iff (s : List Char) :
    tagsAgree s ↔ ∀ p, p <+: s → words isConditionDelimiter .keep (spaceOperators (p ++ ['(']))
      = conditionWords (p ++ ['(']) := by
  have hstart : 0 = 0 ↔ Nesting.outside.braces = 0 := ⟨fun _ => rfl, fun _ => rfl⟩
  constructor
  · intro hs p hp
    exact spacedWordsFrom_eq hstart (tagsAgreeFrom_append_paren hstart hp hs) none
  · intro heq
    exact tagsAgreeFrom_of_forall_prefix hstart fun p hp => ⟨none, heq p hp⟩

end BlockTemplate
