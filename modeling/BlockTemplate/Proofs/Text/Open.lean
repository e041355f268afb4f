import BlockTemplate.Text.Words

/-!
# What is open behind a text

A scanner counts braces and parentheses outside quotes and ignores those that close nothing. Nothing
is open behind a text if and only if its last quote is closed and, outside quotes, each end of the
text closes at least as much as it opens.

## Key results

- `isPlain_afterText_iff`, `afterText_eq_outside_iff`: what a scanner keeps track of, told by the
  text alone
-/

namespace BlockTemplate

/-! ## Texts outside their quotes -/

/-- The quote that is open behind a character. -/
def quoteAfter (quote : Option Char) (c : Char) : Option Char :=
  match quote with
  | some q => if c = q then none else some q
  | none => if isQuote c then some c else none

/-- The quote that is open behind a text. -/
def openQuote (s : List Char) : Option Char := s.foldl quoteAfter none

/-- The characters of a text that are neither marks of quotes nor between two of them. -/
def unquotedFrom (quote : Option Char) : List Char → List Char
  | [] => []
  | c :: s =>
    if quote.isNone && !isQuote c then c :: unquotedFrom (quoteAfter quote c) s
    else unquotedFrom (quoteAfter quote c) s

/-- The characters of a text outside its quotes. -/
def unquoted (s : List Char) : List Char := unquotedFrom none s

/-- Each end of a text closes at least as many brackets as it opens. -/
def ClosesBrackets (opening closing : Char) (s : List Char) : Prop :=
  ∀ t, t <:+ s → t.count opening ≤ t.count closing

/-- Neither a quote nor a brace is open behind the text. -/
structure EndsPlain (s : List Char) : Prop where
  quote : openQuote s = none
  braces : ClosesBrackets '{' '}' (unquoted s)

/-- Nothing is open behind the text. -/
structure EndsOutside (s : List Char) : Prop extends EndsPlain s where
  parens : ClosesBrackets '(' ')' (unquoted s)

/-! ## Levels of brackets -/

/-- The brackets that are open behind a character; what closes nothing is ignored. -/
def levelAfter (opening closing : Char) (level : Nat) (c : Char) : Nat :=
  if c = opening then level + 1 else if c = closing then level - 1 else level

section
variable {opening closing : Char}

/-- No bracket is open behind a text if each end of it closes what it opens, and the whole text
    also what was open before it. -/
theorem foldl_levelAfter_eq_zero_iff (hne : opening ≠ closing) (s : List Char) (level : Nat) :
    s.foldl (levelAfter opening closing) level = 0
      ↔ level + s.count opening ≤ s.count closing ∧ ClosesBrackets opening closing s := by
  -- on the text, for every level: a level that is below zero cannot be told from zero
  induction s generalizing level with
  | nil =>
    have hnil : ClosesBrackets opening closing [] := fun t ht => by
      rw [List.suffix_nil.1 ht]
      exact Nat.le_refl _
    simp [hnil]
  | cons c s ih =>
    have hself (h : ClosesBrackets opening closing s) : s.count opening ≤ s.count closing :=
      h s (List.suffix_refl s)
    have hcons : ClosesBrackets opening closing (c :: s)
        ↔ (c :: s).count opening ≤ (c :: s).count closing ∧ ClosesBrackets opening closing s := by
      constructor
      · exact fun h => ⟨h _ (List.suffix_refl _), fun t ht => h t (ht.trans (List.suffix_cons c s))⟩
      · rintro ⟨hall, hs⟩ t ht
        rcases List.suffix_cons_iff.1 ht with rfl | ht
        · exact hall
        · exact hs t ht
    rw [List.foldl_cons, ih, hcons]
    simp only [levelAfter, List.count_cons, beq_iff_eq]
    constructor
    · rintro ⟨hlevel, hs⟩
      have := hself hs
      refine ⟨?_, ?_, hs⟩ <;> grind
    · rintro ⟨hlevel, -, hs⟩
      have := hself hs
      refine ⟨?_, hs⟩
      grind

theorem foldl_levelAfter_zero (hne : opening ≠ closing) (s : List Char) :
    s.foldl (levelAfter opening closing) 0 = 0 ↔ ClosesBrackets opening closing s := by
  rw [foldl_levelAfter_eq_zero_iff hne, Nat.zero_add]
  exact ⟨And.right, fun h => ⟨h s (List.suffix_refl s), h⟩⟩

end

/-! ## Scanners -/

namespace Nesting

theorem quote_after_eq (n : Nesting) (c : Char) : (n.after c).quote = quoteAfter n.quote c := by
  unfold after quoteAfter
  cases hquote : n.quote with
  | some q => by_cases hc : c = q <;> simp [hc, hquote]
  | none => by_cases hc : isQuote c <;> simp only [hc] <;> grind

theorem quote_afterText (n : Nesting) (s : List Char) :
    (n.afterText s).quote = s.foldl quoteAfter n.quote := by
  induction s generalizing n with
  | nil => rfl
  | cons c s ih => rw [afterText_cons, ih, quote_after_eq, List.foldl_cons]

/-- Whether a character opens or closes brackets: it stands outside quotes and is no mark. -/
def counts (n : Nesting) (c : Char) : Bool := n.quote.isNone && !isQuote c

theorem braces_after_eq (n : Nesting) (c : Char) :
    (n.after c).braces = if n.counts c then levelAfter '{' '}' n.braces c else n.braces := by
  unfold after counts levelAfter
  cases n.quote <;> grind

theorem parens_after_eq (n : Nesting) (c : Char) :
    (n.after c).parens = if n.counts c then levelAfter '(' ')' n.parens c else n.parens := by
  unfold after counts levelAfter
  cases n.quote <;> grind

theorem unquotedFrom_cons (n : Nesting) (c : Char) (s : List Char) :
    unquotedFrom n.quote (c :: s)
      = (if n.counts c then [c] else []) ++ unquotedFrom (n.after c).quote s := by
  rw [unquotedFrom, quote_after_eq]
  unfold counts
  split <;> rfl

theorem levels_afterText (n : Nesting) (s : List Char) :
    (n.afterText s).braces = (unquotedFrom n.quote s).foldl (levelAfter '{' '}') n.braces
      ∧ (n.afterText s).parens = (unquotedFrom n.quote s).foldl (levelAfter '(' ')') n.parens := by
  induction s generalizing n with
  | nil => exact ⟨rfl, rfl⟩
  | cons c s ih =>
    rw [afterText_cons, (ih _).1, (ih _).2, unquotedFrom_cons, braces_after_eq, parens_after_eq]
    split <;> exact ⟨rfl, rfl⟩

theorem eq_outside_iff {n : Nesting} : n = .outside ↔ n.isPlain ∧ n.parens = 0 := by
  obtain ⟨quote, braces, parens⟩ := n
  simp [outside, isPlain, and_assoc]

end Nesting

open Nesting

theorem isPlain_afterText_iff {s : List Char} :
    (Nesting.outside.afterText s).isPlain ↔ EndsPlain s := by
  have hquote : (Nesting.outside.afterText s).quote = openQuote s := quote_afterText _ s
  have hbraces :
      (Nesting.outside.afterText s).braces = 0 ↔ ClosesBrackets '{' '}' (unquoted s) := by
    rw [(levels_afterText _ s).1]
    exact foldl_levelAfter_zero (by decide) _
  rw [isPlain, Bool.and_eq_true, Option.isNone_iff_eq_none, beq_iff_eq, hquote, hbraces]
  exact ⟨fun h => ⟨h.1, h.2⟩, fun h => ⟨h.quote, h.braces⟩⟩

theorem afterText_eq_outside_iff {s : List Char} :
    Nesting.outside.afterText s = .outside ↔ EndsOutside s := by
  have hparens :
      (Nesting.outside.afterText s).parens = 0 ↔ ClosesBrackets '(' ')' (unquoted s) := by
    rw [(levels_afterText _ s).2]
    exact foldl_levelAfter_zero (by decide) _
  rw [eq_outside_iff, isPlain_afterText_iff, hparens]
  exact ⟨fun h => ⟨h.1, h.2⟩, fun h => ⟨h.toEndsPlain, h.parens⟩⟩

end BlockTemplate
