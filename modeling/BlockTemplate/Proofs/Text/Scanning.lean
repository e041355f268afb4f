import BlockTemplate.Text.Basic
import BlockTemplate.Text.Words

/-!
# Scanning over closed texts

A scanner goes on over a text if it splits at none of its characters. Texts in which every quote,
brace and parenthesis that opens is closed again leave a scanner as they find it, and are gone over
wherever splitting waits for what is open around them. So pieces that are gone over come back from
the text that joins them.

## Key results

- `Closed.afterText_eq`: after a closed text, no more is open than before it
- `Closed.runsOver`: a closed text is gone over within what is open around it
- `splitChain_joinWith`, `words_joinWith`: the pieces come back from the text that joins them
-/

namespace BlockTemplate

/-- A text in which every quote, brace and parenthesis that opens is closed again. -/
inductive Closed : List Char → Prop where
  | nil : Closed []
  | plain {c : Char} (hquote : isQuote c = false)
      (hmarks : c ≠ '{' ∧ c ≠ '}' ∧ c ≠ '(' ∧ c ≠ ')') : Closed [c]
  | quoted {q : Char} {s : List Char} (hq : isQuote q) (hs : q ∉ s) : Closed (q :: s ++ [q])
  | braced {s : List Char} (hs : Closed s) : Closed ('{' :: s ++ ['}'])
  | inParens {s : List Char} (hs : Closed s) : Closed ('(' :: s ++ [')'])
  | append {s t : List Char} (hs : Closed s) (ht : Closed t) : Closed (s ++ t)

theorem closed_flatMap {α : Type} {f : α → List Char} {xs : List α}
    (h : ∀ x ∈ xs, Closed (f x)) : Closed (xs.flatMap f) := by
  induction xs with
  | nil => exact .nil
  | cons x xs ih =>
    rw [List.forall_mem_cons] at h
    exact .append h.1 (ih h.2)

theorem joinWith_cons_cons (glue s t : List Char) (rest : List (List Char)) :
    joinWith glue (s :: t :: rest) = s ++ glue ++ joinWith glue (t :: rest) := rfl

theorem joinWith_cons (glue s : List Char) (rest : List (List Char)) :
    joinWith glue (s :: rest) = s ++ rest.flatMap (glue ++ ·) := by
  induction rest generalizing s with
  | nil => simp [joinWith]
  | cons t rest ih => rw [joinWith_cons_cons, ih, List.flatMap_cons, List.append_assoc,
      List.append_assoc]

theorem splitAtChar_ne_nil (c : Char) (s : List Char) : splitAtChar c s ≠ [] := by
  cases s with
  | nil => exact List.cons_ne_nil _ _
  | cons x s =>
    rw [splitAtChar]
    split
    · exact List.cons_ne_nil _ _
    · split <;> exact List.cons_ne_nil _ _

/-- The pieces of a text make it up. -/
theorem joinWith_splitAtChar (c : Char) (s : List Char) : joinWith [c] (splitAtChar c s) = s := by
  induction s with
  | nil => rfl
  | cons x s ih =>
    obtain ⟨piece, pieces, hpieces⟩ := List.exists_cons_of_ne_nil (splitAtChar_ne_nil c s)
    rw [splitAtChar]
    split
    · rename_i hx
      rw [hpieces, joinWith_cons_cons, ← hpieces, ih, hx]
      rfl
    · rw [hpieces] at ih ⊢
      rw [← ih, joinWith_cons, joinWith_cons]
      rfl

theorem mem_joinWith {glue : List Char} {pieces : List (List Char)} {c : Char}
    (h : c ∈ joinWith glue pieces) : c ∈ glue ∨ ∃ s ∈ pieces, c ∈ s := by
  cases pieces with
  | nil => exact nomatch h
  | cons s rest =>
    rw [joinWith_cons, List.mem_append, List.mem_flatMap] at h
    rcases h with h | ⟨t, ht, h⟩
    · exact .inr ⟨s, List.mem_cons_self, h⟩
    · rcases List.mem_append.1 h with h | h
      · exact .inl h
      · exact .inr ⟨t, List.mem_cons_of_mem _ ht, h⟩

theorem closed_joinWith {glue : List Char} {pieces : List (List Char)} (hglue : Closed glue)
    (h : ∀ s ∈ pieces, Closed s) : Closed (joinWith glue pieces) := by
  cases pieces with
  | nil => exact .nil
  | cons s rest =>
    rw [List.forall_mem_cons] at h
    rw [joinWith_cons]
    exact .append h.1 (closed_flatMap fun t ht => .append hglue (h.2 t ht))

namespace Nesting

theorem after_of_quote {n : Nesting} {q c : Char} (hn : n.quote = some q) (hc : c ≠ q) :
    n.after c = n := by
  simp [after, hn, hc]

theorem afterText_of_quote {n : Nesting} {q : Char} (hn : n.quote = some q) {s : List Char}
    (hs : q ∉ s) : n.afterText s = n := by
  induction s with
  | nil => rfl
  | cons c s ih =>
    rw [List.mem_cons, not_or] at hs
    rw [afterText_cons, after_of_quote hn (Ne.symm hs.1), ih hs.2]

theorem after_openBrace {n : Nesting} (hn : n.quote = none) :
    n.after '{' = { n with braces := n.braces + 1 } := by
  simp [after, hn, isQuote]

theorem after_closeBrace {n : Nesting} (hn : n.quote = none) :
    Nesting.after { n with braces := n.braces + 1 } '}' = n := by
  obtain ⟨quote, braces, parens⟩ := n
  cases hn
  rfl

theorem after_openParen {n : Nesting} (hn : n.quote = none) :
    n.after '(' = { n with parens := n.parens + 1 } := by
  simp [after, hn, isQuote]

theorem after_closeParen {n : Nesting} (hn : n.quote = none) :
    Nesting.after { n with parens := n.parens + 1 } ')' = n := by
  obtain ⟨quote, braces, parens⟩ := n
  cases hn
  rfl

/-! ## Texts that a scanner goes over -/

/-- Whether a scanner splits at none of the characters of a text. -/
def RunsOver (splits : Nesting → Char → Bool) : Nesting → List Char → Prop
  | _, [] => True
  | n, c :: s => splits n c = false ∧ RunsOver splits (n.after c) s

section
variable {splits : Nesting → Char → Bool} {n : Nesting}

theorem runsOver_append {s t : List Char} :
    RunsOver splits n (s ++ t) ↔ RunsOver splits n s ∧ RunsOver splits (n.afterText s) t := by
  induction s generalizing n with
  | nil => simp [RunsOver]
  | cons c s ih => simp [RunsOver, ih, and_assoc]

theorem runsOver_singleton {c : Char} : RunsOver splits n [c] ↔ splits n c = false := by
  simp [RunsOver]

/-- Plain characters at none of which the scanner splits. -/
theorem runsOver_of_forall {s : List Char} (hafter : ∀ c ∈ s, n.after c = n)
    (h : ∀ c ∈ s, splits n c = false) : RunsOver splits n s := by
  induction s with
  | nil => trivial
  | cons c s ih =>
    rw [List.forall_mem_cons] at hafter h
    refine ⟨h.1, ?_⟩
    rw [hafter.1]
    exact ih hafter.2 h.2

end

end Nesting

open Nesting

section
variable {splits : Nesting → Char → Bool} {n : Nesting} {s : List Char}

/-- After a closed text, no more is open than before it. -/
theorem Closed.afterText_eq (hs : Closed s) (hn : n.quote = none) : n.afterText s = n := by
  induction hs generalizing n with
  | nil => rfl
  | plain hquote hmarks => simp [after, hn, hquote, hmarks]
  | @quoted q s hq hs =>
    have hopen : n.after q = { n with quote := some q } := by simp [after, hn, hq]
    rw [List.cons_append, afterText_cons, hopen, afterText_append,
      afterText_of_quote rfl hs, afterText_cons, afterText_nil]
    simp [after, ← hn]
  | @braced s hs ih =>
    have hin := ih (n := { n with braces := n.braces + 1 }) hn
    rw [List.cons_append, afterText_cons, after_openBrace hn, afterText_append, hin,
      afterText_cons, afterText_nil, after_closeBrace hn]
  | @inParens s hs ih =>
    have hin := ih (n := { n with parens := n.parens + 1 }) hn
    rw [List.cons_append, afterText_cons, after_openParen hn, afterText_append, hin,
      afterText_cons, afterText_nil, after_closeParen hn]
  | append hs ht ihs iht => rw [afterText_append, ihs hn, iht hn]

/-- A quoted section is gone over if the scanner splits neither at the first mark nor within. -/
theorem runsOver_quoted {q : Char} (hq : isQuote q) (hn : n.quote = none) (hs : q ∉ s)
    (hopen : splits n q = false) (hin : ∀ c, splits { n with quote := some q } c = false) :
    RunsOver splits n (q :: s ++ [q]) := by
  have hafter : n.after q = { n with quote := some q } := by simp [after, hn, hq]
  rw [List.cons_append]
  refine ⟨hopen, ?_⟩
  rw [hafter, runsOver_append, afterText_of_quote rfl hs, runsOver_singleton]
  refine ⟨runsOver_of_forall ?_ fun c _ => hin c, hin q⟩
  intro c hc
  refine after_of_quote rfl ?_
  rintro rfl
  exact hs hc

/-- A closed text is gone over within what is open around it, if the scanner does not split
    there. -/
theorem Closed.runsOver (hs : Closed s) (hn : n.quote = none)
    (h : ∀ m c, n.braces ≤ m.braces → n.parens ≤ m.parens → splits m c = false) :
    RunsOver splits n s := by
  induction hs generalizing n with
  | nil => trivial
  | plain hquote hmarks => exact runsOver_singleton.2 (h n _ (Nat.le_refl _) (Nat.le_refl _))
  | quoted hq hs =>
    have hhere (c : Char) (m : Nesting) (hm : m.braces = n.braces ∧ m.parens = n.parens) :
        splits m c = false := h m c (Nat.le_of_eq hm.1.symm) (Nat.le_of_eq hm.2.symm)
    exact runsOver_quoted hq hn hs (hhere _ n ⟨rfl, rfl⟩) fun c => hhere c _ ⟨rfl, rfl⟩
  | @braced s hs ih =>
    -- one more brace is open inside, where the scanner splits even less
    have hin : RunsOver splits { n with braces := n.braces + 1 } s :=
      ih hn fun m c hbraces hparens => h m c (Nat.le_of_succ_le hbraces) hparens
    rw [List.cons_append]
    refine ⟨h n _ (Nat.le_refl _) (Nat.le_refl _), ?_⟩
    rw [after_openBrace hn, runsOver_append, runsOver_singleton, hs.afterText_eq (by exact hn)]
    exact ⟨hin, h _ _ (Nat.le_succ _) (Nat.le_refl _)⟩
  | @inParens s hs ih =>
    have hin : RunsOver splits { n with parens := n.parens + 1 } s :=
      ih hn fun m c hbraces hparens => h m c hbraces (Nat.le_of_succ_le hparens)
    rw [List.cons_append]
    refine ⟨h n _ (Nat.le_refl _) (Nat.le_refl _), ?_⟩
    rw [after_openParen hn, runsOver_append, runsOver_singleton, hs.afterText_eq (by exact hn)]
    exact ⟨hin, h _ _ (Nat.le_refl _) (Nat.le_succ _)⟩
  | append hs ht ihs iht =>
    rw [runsOver_append, hs.afterText_eq hn]
    exact ⟨ihs hn h, iht hn h⟩

end

/-- A text that a scanner goes over as a whole, with nothing open before and after it. -/
structure IsWhole (splits : Nesting → Char → Bool) (s : List Char) : Prop where
  runsOver : RunsOver splits .outside s
  afterText : Nesting.outside.afterText s = .outside

theorem IsWhole.append {splits : Nesting → Char → Bool} {s t : List Char}
    (hs : IsWhole splits s) (ht : IsWhole splits t) : IsWhole splits (s ++ t) := by
  refine ⟨?_, ?_⟩
  · rw [runsOver_append, hs.afterText]
    exact ⟨hs.runsOver, ht.runsOver⟩
  · rw [afterText_append, hs.afterText, ht.afterText]

/-- Characters that neither open nor close anything, and at none of which the scanner splits. -/
theorem isWhole_of_forall {splits : Nesting → Char → Bool} {s : List Char}
    (h : ∀ c ∈ s, Nesting.outside.after c = .outside ∧ splits .outside c = false) :
    IsWhole splits s := by
  refine ⟨runsOver_of_forall (fun c hc => (h c hc).1) fun c hc => (h c hc).2, ?_⟩
  induction s with
  | nil => rfl
  | cons c s ih =>
    rw [List.forall_mem_cons] at h
    rw [afterText_cons, h.1.1, ih h.2]

/-! ## Chains -/

/-- Whether the chain is split at a character. -/
def splitsAtBar (n : Nesting) (c : Char) : Bool := n.splitsChain && c == '|'

/-- No bar within parentheses splits a chain. -/
theorem isWhole_inParens {s : List Char} (hs : Closed s) :
    IsWhole splitsAtBar ('(' :: s ++ [')']) := by
  have hin : RunsOver splitsAtBar ⟨none, 0, 1⟩ s := by
    refine hs.runsOver rfl fun m c _ hparens => ?_
    have hopen : (m.parens == 0) = false := beq_false_of_ne (Nat.ne_of_gt hparens)
    rw [splitsAtBar, Nesting.splitsChain, hopen, Bool.and_false, Bool.false_and]
  have hclose : RunsOver splitsAtBar (Nesting.afterText ⟨none, 0, 1⟩ s) [')'] := by
    rw [hs.afterText_eq rfl]
    exact runsOver_singleton.2 rfl
  exact ⟨⟨rfl, runsOver_append.2 ⟨hin, hclose⟩⟩, hs.inParens.afterText_eq rfl⟩

theorem splitChainFrom_cons_of_splits {n : Nesting} {c : Char} (h : splitsAtBar n c)
    (current rest : List Char) :
    splitChainFrom n current (c :: rest) = current.reverse :: splitChainFrom n [] rest :=
  if_pos h

theorem splitChainFrom_cons {n : Nesting} {c : Char} (h : splitsAtBar n c = false)
    (current rest : List Char) :
    splitChainFrom n current (c :: rest) = splitChainFrom (n.after c) (c :: current) rest :=
  if_neg (Bool.eq_false_iff.1 h)

theorem splitChainFrom_append {n : Nesting} {current s : List Char}
    (h : RunsOver splitsAtBar n s) (rest : List Char) :
    splitChainFrom n current (s ++ rest)
      = splitChainFrom (n.afterText s) (s.reverse ++ current) rest := by
  induction s generalizing n current with
  | nil => rfl
  | cons c s ih =>
    rw [List.cons_append, splitChainFrom_cons h.1, ih h.2, afterText_cons, List.reverse_cons,
      List.append_assoc, List.singleton_append]

/-- The parts of a chain come back from the text that joins them. -/
theorem splitChain_joinWith {parts : List (List Char)} (hne : parts ≠ [])
    (h : ∀ s ∈ parts, IsWhole splitsAtBar s) : splitChain (joinWith ['|'] parts) = parts := by
  rw [splitChain]
  induction parts with
  | nil => exact absurd rfl hne
  | cons s rest ih =>
    rw [List.forall_mem_cons] at h
    obtain ⟨hs, hrest⟩ := h
    cases rest with
    | nil =>
      have hsplit := @splitChainFrom_append _ [] _ hs.runsOver []
      rw [List.append_nil, List.append_nil] at hsplit
      rw [joinWith, hsplit, splitChainFrom, List.reverse_reverse]
    | cons t rest =>
      rw [joinWith_cons_cons, List.append_assoc, splitChainFrom_append hs.runsOver,
        hs.afterText, List.singleton_append, List.append_nil,
        splitChainFrom_cons_of_splits rfl, List.reverse_reverse,
        ih (List.cons_ne_nil _ _) hrest]

/-! ## Words -/

section
variable {isDelimiter : Char → Bool}

/-- Whether words are split at a character. -/
def splitsAtDelimiter (isDelimiter : Char → Bool) (n : Nesting) (c : Char) : Bool :=
  n.isPlain && !n.isMark c && c != '{' && c != '}' && isDelimiter c

/-- No delimiter within quotes splits words. -/
theorem isWhole_quoted {q : Char} {s : List Char} (hq : isQuote q) (hs : q ∉ s) :
    IsWhole (splitsAtDelimiter isDelimiter) (q :: s ++ [q]) := by
  refine ⟨runsOver_quoted hq rfl hs ?_ fun c => rfl, (Closed.quoted hq hs).afterText_eq rfl⟩
  simp [splitsAtDelimiter, Nesting.isMark, Nesting.outside, hq]

/-- No delimiter within braces splits words. -/
theorem isWhole_braced {s : List Char} (hs : Closed s) :
    IsWhole (splitsAtDelimiter isDelimiter) ('{' :: s ++ ['}']) := by
  have hbraces {m : Nesting} (hm : 1 ≤ m.braces) (c : Char) :
      splitsAtDelimiter isDelimiter m c = false := by
    have hopen : (m.braces == 0) = false := beq_false_of_ne (Nat.ne_of_gt hm)
    rw [splitsAtDelimiter, Nesting.isPlain, hopen]
    simp
  have hin : RunsOver (splitsAtDelimiter isDelimiter) ⟨none, 1, 0⟩ s :=
    hs.runsOver rfl fun m c hm _ => hbraces hm c
  have hclose : RunsOver (splitsAtDelimiter isDelimiter)
      (Nesting.afterText ⟨none, 1, 0⟩ s) ['}'] := by
    rw [hs.afterText_eq rfl]
    exact runsOver_singleton.2 (hbraces (Nat.le_refl _) _)
  have hopen : splitsAtDelimiter isDelimiter .outside '{' = false := by simp [splitsAtDelimiter]
  exact ⟨⟨hopen, runsOver_append.2 ⟨hin, hclose⟩⟩, hs.braced.afterText_eq rfl⟩

theorem wordsFrom_cons_of_splits {n : Nesting} {c : Char} (h : splitsAtDelimiter isDelimiter n c)
    (current : Option (List Char)) (rest : List Char) :
    wordsFrom isDelimiter .keep n current (c :: rest)
      = (current.map List.reverse).toList
        ++ wordsFrom isDelimiter .keep (n.after c) none rest :=
  if_pos h

theorem wordsFrom_cons {n : Nesting} {c : Char} (h : splitsAtDelimiter isDelimiter n c = false)
    (current : Option (List Char)) (rest : List Char) :
    wordsFrom isDelimiter .keep n current (c :: rest)
      = wordsFrom isDelimiter .keep (n.after c) (some (c :: current.getD [])) rest :=
  if_neg (Bool.eq_false_iff.1 h)

theorem wordsFrom_append {n : Nesting} {current : Option (List Char)} {s : List Char}
    (hne : s ≠ []) (h : RunsOver (splitsAtDelimiter isDelimiter) n s) (rest : List Char) :
    wordsFrom isDelimiter .keep n current (s ++ rest)
      = wordsFrom isDelimiter .keep (n.afterText s) (some (s.reverse ++ current.getD [])) rest := by
  induction s generalizing n current with
  | nil => exact absurd rfl hne
  | cons c s ih =>
    rw [List.cons_append, wordsFrom_cons h.1, afterText_cons]
    cases s with
    | nil => rfl
    | cons d s =>
      rw [ih (List.cons_ne_nil _ _) h.2, Option.getD_some, List.reverse_cons (a := c),
        List.append_assoc, List.singleton_append]

/-- A text at whose characters words are split, with nothing open after it. -/
def IsGlue (isDelimiter : Char → Bool) (glue : List Char) : Prop :=
  ∀ c ∈ glue, splitsAtDelimiter isDelimiter .outside c ∧ Nesting.outside.after c = .outside

theorem wordsFrom_glue {glue : List Char} (h : IsGlue isDelimiter glue) (rest : List Char) :
    wordsFrom isDelimiter .keep .outside none (glue ++ rest)
      = wordsFrom isDelimiter .keep .outside none rest := by
  induction glue with
  | nil => rfl
  | cons c glue ih =>
    rw [IsGlue, List.forall_mem_cons] at h
    rw [List.cons_append, wordsFrom_cons_of_splits h.1.1, h.1.2, ih h.2]
    rfl

/-- Words come back from the text that joins them. -/
theorem words_joinWith {glue : List Char} (hne : glue ≠ []) (hglue : IsGlue isDelimiter glue)
    {parts : List (List Char)}
    (h : ∀ s ∈ parts, s ≠ [] ∧ IsWhole (splitsAtDelimiter isDelimiter) s) :
    words isDelimiter .keep (joinWith glue parts) = parts := by
  rw [words]
  induction parts with
  | nil => rfl
  | cons s rest ih =>
    rw [List.forall_mem_cons] at h
    obtain ⟨⟨hs, hwhole⟩, hrest⟩ := h
    have hword (rest : List Char) := @wordsFrom_append _ _ none _ hs hwhole.runsOver rest
    rw [hwhole.afterText, Option.getD_none, List.append_nil] at hword
    cases rest with
    | nil =>
      have hend := hword []
      rw [List.append_nil] at hend
      rw [joinWith, hend, wordsFrom, Option.map_some, List.reverse_reverse]
      rfl
    | cons t rest =>
      -- the first delimiter ends the word, the others stand between words
      obtain ⟨c, more, rfl⟩ := List.exists_cons_of_ne_nil hne
      rw [IsGlue, List.forall_mem_cons] at hglue
      have hbetween := wordsFrom_glue hglue.2 (joinWith (c :: more) (t :: rest))
      rw [joinWith_cons_cons, List.append_assoc, hword, List.cons_append,
        wordsFrom_cons_of_splits hglue.1.1, hglue.1.2, hbetween, ih hrest, Option.map_some,
        List.reverse_reverse]
      rfl

end

end BlockTemplate
