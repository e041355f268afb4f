import BlockTemplate.Proofs.Text.Open
import BlockTemplate.Proofs.Text.Scanning

/-!
# The words of a text

Words are split at the delimiters outside quotes and braces. A word that ends at a delimiter leaves
neither a quote nor a brace open, so that all words but the last can stand anywhere between
delimiters and are read again as they are.

## Key results

- `splitInto_words`, `SplitInto.words_eq`: the words of a text are the only ones that it splits into
- `SplitInto.isSpacedOut`, `SplitInto.joinWith`: where the words stand in the text, and the words of
  the text that joins them
- `words_isStable`: words with their quote marks make up the text and are found again
-/

namespace BlockTemplate

open Nesting

/-- Words in their order, with delimiters before, between and behind them. -/
def IsSpacedOut (isDelimiter : Char → Bool) (s : List Char) (words : List (List Char)) : Prop :=
  ∃ before gaps, s = before ++ (List.zipWith (· ++ ·) words gaps).flatten
    ∧ gaps.length = words.length
    ∧ (∀ gap ∈ before :: gaps, ∀ c ∈ gap, isDelimiter c)
    ∧ ∀ gap ∈ gaps.dropLast, gap ≠ []

/-! ## Parentheses do not matter -/

/-- The same quote and as many braces are open. -/
structure Nesting.IsLike (n m : Nesting) : Prop where
  quote : n.quote = m.quote
  braces : n.braces = m.braces

theorem Nesting.IsLike.after {n m : Nesting} (h : n.IsLike m) (c : Char) :
    (n.after c).IsLike (m.after c) where
  quote := by rw [quote_after_eq, quote_after_eq, h.quote]
  braces := by rw [braces_after_eq, braces_after_eq, counts, counts, h.quote, h.braces]

theorem Nesting.isLike_outside {n : Nesting} (h : n.isPlain) : n.IsLike .outside := by
  rw [isPlain, Bool.and_eq_true, Option.isNone_iff_eq_none, beq_iff_eq] at h
  exact ⟨h.1, h.2⟩

section
variable {isDelimiter : Char → Bool} {n m : Nesting}

theorem Nesting.IsLike.splits (h : n.IsLike m) (c : Char) :
    splitsAtDelimiter isDelimiter n c = splitsAtDelimiter isDelimiter m c := by
  unfold splitsAtDelimiter isPlain isMark
  rw [h.quote, h.braces]

theorem Nesting.IsLike.wordsFrom_eq (h : n.IsLike m) (current : Option (List Char))
    (s : List Char) :
    wordsFrom isDelimiter .keep n current s = wordsFrom isDelimiter .keep m current s := by
  induction s generalizing n m current with
  | nil => rfl
  | cons c s ih =>
    cases hc : splitsAtDelimiter isDelimiter n c with
    | true =>
      rw [wordsFrom_cons_of_splits hc, wordsFrom_cons_of_splits (h.splits c ▸ hc), ih (h.after c)]
    | false => rw [wordsFrom_cons hc, wordsFrom_cons (h.splits c ▸ hc), ih (h.after c)]

/-- Where a delimiter splits words: it is neither a quote nor a brace, and none is open. -/
theorem splitsAtDelimiter_iff {c : Char} :
    splitsAtDelimiter isDelimiter n c
      ↔ n.isPlain ∧ isDelimiter c ∧ isQuote c = false ∧ c ≠ '{' ∧ c ≠ '}' := by
  by_cases hn : n.isPlain
  · have hmark : n.isMark c = isQuote c := by
      rw [isPlain, Bool.and_eq_true, Option.isNone_iff_eq_none] at hn
      rw [isMark, hn.1]
    simp only [splitsAtDelimiter, hmark, Bool.and_eq_true, Bool.not_eq_true', bne_iff_ne]
    grind
  · simp [splitsAtDelimiter, hn]

/-- Delimiters open and close neither quotes nor braces. -/
theorem isPlain_after_of_splits {c : Char} (h : splitsAtDelimiter isDelimiter n c) :
    (n.after c).isPlain := by
  obtain ⟨hn, -, hquote, hopen, hclose⟩ := splitsAtDelimiter_iff.1 h
  have hlike := (isLike_outside hn).after c
  have hquoteAfter : (n.after c).quote = none := by
    rw [hlike.quote, quote_after_eq]
    simp only [quoteAfter, outside, hquote, Bool.false_eq_true, if_false]
  have hbracesAfter : (n.after c).braces = 0 := by
    rw [hlike.braces, braces_after_eq]
    simp only [levelAfter, outside, hopen, hclose, if_false, ite_self]
  rw [isPlain, hquoteAfter, hbracesAfter]
  rfl

end

/-! ## Texts and their words -/

/-- A text and its words: delimiters, and words each of which ends where the scanner splits, or at
    the end of the text. -/
inductive SplitInto (isDelimiter : Char → Bool) : List Char → List (List Char) → Prop where
  | nil : SplitInto isDelimiter [] []
  | delimiter {c : Char} {s : List Char} {words : List (List Char)} (hc : isDelimiter c)
      (h : SplitInto isDelimiter s words) : SplitInto isDelimiter (c :: s) words
  | last {word : List Char} (hne : word ≠ [])
      (hruns : RunsOver (splitsAtDelimiter isDelimiter) .outside word) :
      SplitInto isDelimiter word [word]
  | word {word s : List Char} {c : Char} {words : List (List Char)} (hne : word ≠ [])
      (hruns : RunsOver (splitsAtDelimiter isDelimiter) .outside word)
      (hplain : (Nesting.outside.afterText word).isPlain) (hc : isDelimiter c)
      (h : SplitInto isDelimiter s words) : SplitInto isDelimiter (word ++ c :: s) (word :: words)

section
variable {isDelimiter : Char → Bool} {s : List Char} {words : List (List Char)}

/-- What the scanner reads from a place on, between words or behind the start of one. -/
theorem splitInto_wordsFrom (s : List Char) :
    (∀ n : Nesting, n.isPlain →
      SplitInto isDelimiter s (wordsFrom isDelimiter .keep n none s))
    ∧ ∀ (n : Nesting) (current : List Char), current ≠ [] →
      RunsOver (splitsAtDelimiter isDelimiter) .outside current.reverse →
      (Nesting.outside.afterText current.reverse).IsLike n →
      SplitInto isDelimiter (current.reverse ++ s)
        (wordsFrom isDelimiter .keep n (some current) s) := by
  -- between two words and within one, both at once: a character leads from the one to the other
  induction s with
  | nil =>
    refine ⟨fun n hn => .nil, fun n current hne hruns hlike => ?_⟩
    rw [List.append_nil]
    exact .last (mt List.reverse_eq_nil_iff.1 hne) hruns
  | cons c s ih =>
    obtain ⟨ihBetween, ihWithin⟩ := ih
    constructor
    · intro n hn
      cases hc : splitsAtDelimiter isDelimiter n c with
      | true =>
        rw [wordsFrom_cons_of_splits hc]
        exact .delimiter (splitsAtDelimiter_iff.1 hc).2.1 (ihBetween _ (isPlain_after_of_splits hc))
      | false =>
        have hlike := isLike_outside hn
        have hruns : RunsOver (splitsAtDelimiter isDelimiter) .outside [c] :=
          runsOver_singleton.2 (hlike.splits c ▸ hc)
        rw [wordsFrom_cons hc]
        exact ihWithin _ [c] (List.cons_ne_nil _ _) hruns ⟨(hlike.after c).quote.symm,
          (hlike.after c).braces.symm⟩
    · intro n current hne hruns hlike
      have hsplits : splitsAtDelimiter isDelimiter (Nesting.outside.afterText current.reverse) c
          = splitsAtDelimiter isDelimiter n c := hlike.splits c
      cases hc : splitsAtDelimiter isDelimiter n c with
      | true =>
        obtain ⟨hplain, hdelimiter, -⟩ := splitsAtDelimiter_iff.1 (hsplits.trans hc)
        rw [wordsFrom_cons_of_splits hc]
        exact .word (mt List.reverse_eq_nil_iff.1 hne) hruns hplain hdelimiter
          (ihBetween _ (isPlain_after_of_splits hc))
      | false =>
        have hmore : RunsOver (splitsAtDelimiter isDelimiter) .outside (c :: current).reverse := by
          rw [List.reverse_cons, runsOver_append, runsOver_singleton, hsplits]
          exact ⟨hruns, hc⟩
        have hlikeMore :
            (Nesting.outside.afterText (c :: current).reverse).IsLike (n.after c) := by
          rw [List.reverse_cons, afterText_append]
          exact hlike.after c
        have hword := ihWithin _ (c :: current) (List.cons_ne_nil _ _) hmore hlikeMore
        rw [List.reverse_cons, List.append_assoc, List.singleton_append] at hword
        rw [wordsFrom_cons hc]
        exact hword

theorem splitInto_words (s : List Char) :
    SplitInto isDelimiter s (BlockTemplate.words isDelimiter .keep s) :=
  (splitInto_wordsFrom s).1 .outside rfl

namespace SplitInto

/-- Words are not empty, and the scanner does not split in them. -/
theorem runsOver (h : SplitInto isDelimiter s words) :
    ∀ word ∈ words, word ≠ [] ∧ RunsOver (splitsAtDelimiter isDelimiter) .outside word := by
  induction h with
  | nil => exact fun word hword => nomatch hword
  | delimiter hc h ih => exact ih
  | last hne hruns =>
    intro word hword
    rw [List.mem_singleton.1 hword]
    exact ⟨hne, hruns⟩
  | word hne hruns hplain hc h ih =>
    rw [List.forall_mem_cons]
    exact ⟨⟨hne, hruns⟩, ih⟩

theorem isSpacedOut (h : SplitInto isDelimiter s words) : IsSpacedOut isDelimiter s words := by
  induction h with
  | nil => exact ⟨[], [], rfl, rfl, by simp, by simp⟩
  | @delimiter c s words hc h ih =>
    obtain ⟨before, gaps, rfl, hlength, hall, hgaps⟩ := ih
    rw [List.forall_mem_cons] at hall
    refine ⟨c :: before, gaps, rfl, hlength, ?_, hgaps⟩
    rw [List.forall_mem_cons, List.forall_mem_cons]
    exact ⟨⟨hc, hall.1⟩, hall.2⟩
  | @last word hne hruns => exact ⟨[], [[]], by simp, rfl, by simp, by simp⟩
  | @word word s c words hne hruns hplain hc h ih =>
    obtain ⟨before, gaps, rfl, hlength, hall, hgaps⟩ := ih
    rw [List.forall_mem_cons] at hall
    refine ⟨[], (c :: before) :: gaps, by simp, congrArg Nat.succ hlength, ?_, ?_⟩
    · rw [List.forall_mem_cons, List.forall_mem_cons, List.forall_mem_cons]
      exact ⟨nofun, ⟨hc, hall.1⟩, hall.2⟩
    · intro gap hgap
      -- only the gap behind the last word may be empty
      cases gaps with
      | nil => exact nomatch hgap
      | cons next more =>
        rw [List.dropLast_cons_of_ne_nil (List.cons_ne_nil _ _)] at hgap
        rcases List.mem_cons.1 hgap with rfl | hgap
        · exact List.cons_ne_nil _ _
        · exact hgaps gap hgap

/-- The words of a text are those of the text that joins them. -/
theorem joinWith {d : Char} (hd : isDelimiter d) (h : SplitInto isDelimiter s words) :
    SplitInto isDelimiter (BlockTemplate.joinWith [d] words) words := by
  induction h with
  | nil => exact .nil
  | delimiter hc h ih => exact ih
  | last hne hruns => exact .last hne hruns
  | @word word s c words hne hruns hplain hc h ih =>
    cases words with
    | nil => exact .last hne hruns
    | cons next more =>
      rw [joinWith_cons_cons, List.append_assoc]
      exact .word hne hruns hplain hd ih

/-- The words of a text are those that it splits into. -/
theorem words_eq (hinert : ∀ c, isDelimiter c → isQuote c = false ∧ c ≠ '{' ∧ c ≠ '}')
    (h : SplitInto isDelimiter s words) : BlockTemplate.words isDelimiter .keep s = words := by
  have hsplits {n : Nesting} (hn : n.isPlain) {c : Char} (hc : isDelimiter c) :
      splitsAtDelimiter isDelimiter n c := splitsAtDelimiter_iff.2 ⟨hn, hc, hinert c hc⟩
  -- behind a delimiter the scanner is between words, parentheses apart
  have hrest {n : Nesting} (hn : n.isPlain) {c : Char} (hc : isDelimiter c) (s : List Char) :
      wordsFrom isDelimiter .keep (n.after c) none s
        = BlockTemplate.words isDelimiter .keep s :=
    (isLike_outside (isPlain_after_of_splits (hsplits hn hc))).wordsFrom_eq none s
  induction h with
  | nil => rfl
  | @delimiter c s words hc h ih =>
    rw [BlockTemplate.words, wordsFrom_cons_of_splits (hsplits rfl hc), hrest rfl hc, ih]
    rfl
  | @last word hne hruns =>
    have hword : BlockTemplate.words isDelimiter .keep (word ++ []) = _ :=
      wordsFrom_append hne hruns []
    rw [List.append_nil, Option.getD_none, List.append_nil] at hword
    rw [hword, wordsFrom, Option.map_some, List.reverse_reverse]
    rfl
  | @word word s c words hne hruns hplain hc h ih =>
    rw [BlockTemplate.words, wordsFrom_append hne hruns,
      wordsFrom_cons_of_splits (hsplits hplain hc), hrest hplain hc, ih, Option.getD_none,
      List.append_nil, Option.map_some, List.reverse_reverse]
    rfl

end SplitInto

end

/-- A delimiter in a text that the scanner goes over stands within quotes or braces. -/
theorem not_endsPlain_of_runsOver {isDelimiter : Char → Bool} {before after : List Char} {c : Char}
    (hruns : RunsOver (splitsAtDelimiter isDelimiter) .outside (before ++ c :: after))
    (hc : isDelimiter c) (hinert : isQuote c = false ∧ c ≠ '{' ∧ c ≠ '}') :
    ¬ EndsPlain before := by
  intro hplain
  have hsplits : splitsAtDelimiter isDelimiter (Nesting.outside.afterText before) c :=
    splitsAtDelimiter_iff.2 ⟨isPlain_afterText_iff.2 hplain, hc, hinert⟩
  rw [(runsOver_append.1 hruns).2.1] at hsplits
  exact Bool.false_ne_true hsplits

/-- If no delimiter is a quote or a brace, then the words of a text that keep their quote marks make
    up the text with delimiters before, between and behind them. They are not empty, delimiters
    stand in them only within quotes or braces, and joined by any delimiter they are found again. -/
theorem words_isStable {isDelimiter : Char → Bool}
    (hinert : ∀ c, isDelimiter c → isQuote c = false ∧ c ≠ '{' ∧ c ≠ '}') (s : List Char) :
    IsSpacedOut isDelimiter s (words isDelimiter .keep s)
    ∧ (∀ word ∈ words isDelimiter .keep s, word ≠ []
        ∧ ∀ before c after, word = before ++ c :: after → isDelimiter c → ¬ EndsPlain before)
    ∧ ∀ d, isDelimiter d →
        words isDelimiter .keep (joinWith [d] (words isDelimiter .keep s))
          = words isDelimiter .keep s := by
  have hsplit : SplitInto isDelimiter s (words isDelimiter .keep s) := splitInto_words s
  refine ⟨hsplit.isSpacedOut, fun word hword => ?_, fun d hd => ?_⟩
  · obtain ⟨hne, hruns⟩ := hsplit.runsOver word hword
    refine ⟨hne, ?_⟩
    rintro before c after rfl hc
    exact not_endsPlain_of_runsOver hruns hc (hinert c hc)
  · exact (hsplit.joinWith hd).words_eq hinert

/-- Arguments with a brace that closes nothing, a delimiter in a quote and in braces, and a quote
    that is left open, joined by tabs. -/
theorem words_isStable_of_openQuote :
    let s := "\x7da, \x7b'b\x7d', c\x7d  (d,'e f".toList
    let arguments := ["\x7da".toList, "\x7b'b\x7d', c\x7d".toList, "(d".toList, "'e f".toList]
    (∀ c, isArgumentDelimiter c → isQuote c = false ∧ c ≠ '{' ∧ c ≠ '}')
      ∧ words isArgumentDelimiter .keep s = arguments
      ∧ words isArgumentDelimiter .keep (joinWith ['\t'] arguments) = arguments := by
  intro s arguments
  have hinert : ∀ c, isArgumentDelimiter c → isQuote c = false ∧ c ≠ '{' ∧ c ≠ '}' := by
    intro c hc
    simp only [isArgumentDelimiter, Bool.or_eq_true, beq_iff_eq] at hc
    obtain (((rfl | rfl) | rfl) | rfl) | rfl := hc <;> decide
  have hwords : words isArgumentDelimiter .keep s = arguments := by decide
  obtain ⟨-, -, hjoin⟩ := words_isStable hinert s
  have htab := hjoin '\t' rfl
  rw [hwords] at htab
  exact ⟨hinert, hwords, htab⟩

end BlockTemplate
