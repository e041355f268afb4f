import BlockTemplate.Json.Reader
import BlockTemplate.Proofs.Text.Pattern

/-!
# Numbers in JSON are read back

A number that is read to the end of its text is read as the same number in front of whatever cannot
belong to a number. Integers with not too many digits are read to the end of their text.

## Key results

- `readScalar_append`: a number is read in front of a comma or a closing bracket
- `readsBack_int`: integers are read back
-/

namespace BlockTemplate.Json

/-! ## What follows a number -/

/-- Whether nothing more of a number can follow: the text is at its end, or goes on with a comma or
    a closing bracket. -/
def EndsValue (after : List Char) : Prop :=
  ∀ c rest, after = c :: rest → c = ',' ∨ c = ']' ∨ c = '}'

theorem endsValue_nil : EndsValue [] := fun _ _ h => nomatch h

theorem endsValue_cons {c : Char} (h : c = ',' ∨ c = ']' ∨ c = '}') (rest : List Char) :
    EndsValue (c :: rest) := by
  intro d more heq
  cases heq
  exact h

section
variable {s after : List Char}

theorem takeWhile_isNumeral_append (h : EndsValue after) :
    (s ++ after).takeWhile isNumeral = s.takeWhile isNumeral
      ∧ (s ++ after).dropWhile isNumeral = s.dropWhile isNumeral ++ after := by
  induction s with
  | nil =>
    cases after with
    | nil => exact ⟨rfl, rfl⟩
    | cons c rest =>
      -- what ends a number is no digit, so that the digits end where the number does
      have hc : isNumeral c = false := by
        rcases h c rest rfl with rfl | rfl | rfl <;> rfl
      simp [hc]
  | cons c s ih =>
    by_cases hc : isNumeral c = true
    · simp [hc, ih]
    · simp [hc]

theorem readFraction_append (h : EndsValue after) :
    readFraction (s ++ after) = ((readFraction s).1, (readFraction s).2 ++ after) := by
  cases s with
  | nil =>
    -- what ends a number starts no fraction
    have hpoint : ∀ rest, after ≠ '.' :: rest := by
      rintro rest rfl
      rcases h _ _ rfl with hc | hc | hc <;> exact nomatch hc
    show readFraction after = ([], after)
    unfold readFraction
    split
    · rename_i rest
      exact absurd rfl (hpoint rest)
    · rfl
  | cons c s =>
    by_cases hc : c = '.'
    · subst hc
      obtain ⟨htake, hdrop⟩ := takeWhile_isNumeral_append (s := s) h
      rw [List.cons_append, readFraction, readFraction, htake, hdrop]
      split <;> rfl
    · rw [List.cons_append, readFraction, readFraction]
      · rfl
      all_goals
        intro rest heq
        exact hc (List.cons.inj heq).1

/-- An exponent after its sign; without digits the text stays as it is. -/
def exponentAfterSign (text : List Char) (negative : Bool) (afterSign : List Char) :
    Option Int × List Char :=
  let digits := afterSign.takeWhile isNumeral
  if digits.isEmpty then (none, text)
  else
    let size : Int := numeralsValue digits
    (some (if negative then -size else size), afterSign.dropWhile isNumeral)

theorem exponentAfterSign_append (h : EndsValue after) (text : List Char) (negative : Bool) :
    exponentAfterSign (text ++ after) negative (s ++ after)
      = ((exponentAfterSign text negative s).1,
          (exponentAfterSign text negative s).2 ++ after) := by
  obtain ⟨htake, hdrop⟩ := takeWhile_isNumeral_append (s := s) h
  rw [exponentAfterSign, exponentAfterSign, htake, hdrop]
  split <;> rfl

variable {mark : Char}

theorem readExponent_of_ne (hmark : ¬(mark = 'e' ∨ mark = 'E')) (rest : List Char) :
    readExponent (mark :: rest) = (none, mark :: rest) := by
  simp only [readExponent, if_neg hmark]

theorem readExponent_minus (hmark : mark = 'e' ∨ mark = 'E') (rest : List Char) :
    readExponent (mark :: '-' :: rest) = exponentAfterSign (mark :: '-' :: rest) true rest := by
  rw [readExponent, if_pos hmark]
  rfl

theorem readExponent_plus (hmark : mark = 'e' ∨ mark = 'E') (rest : List Char) :
    readExponent (mark :: '+' :: rest) = exponentAfterSign (mark :: '+' :: rest) false rest := by
  rw [readExponent, if_pos hmark]
  rfl

theorem readExponent_unsigned (hmark : mark = 'e' ∨ mark = 'E') {rest : List Char}
    (hminus : ∀ more, rest ≠ '-' :: more) (hplus : ∀ more, rest ≠ '+' :: more) :
    readExponent (mark :: rest) = exponentAfterSign (mark :: rest) false rest := by
  simp only [readExponent, if_pos hmark]
  rfl

theorem readExponent_append (h : EndsValue after) :
    readExponent (s ++ after) = ((readExponent s).1, (readExponent s).2 ++ after) := by
  cases s with
  | nil =>
    cases after with
    | nil => rfl
    | cons c rest =>
      -- what ends a number starts no exponent
      have hmark : ¬(c = 'e' ∨ c = 'E') := by
        rcases h c rest rfl with rfl | rfl | rfl <;> decide
      exact readExponent_of_ne hmark rest
  | cons mark s =>
    by_cases hmark : mark = 'e' ∨ mark = 'E'
    · by_cases hminus : ∃ more, s = '-' :: more
      · obtain ⟨more, rfl⟩ := hminus
        rw [readExponent_minus hmark, ← exponentAfterSign_append h]
        exact readExponent_minus hmark (more ++ after)
      by_cases hplus : ∃ more, s = '+' :: more
      · obtain ⟨more, rfl⟩ := hplus
        rw [readExponent_plus hmark, ← exponentAfterSign_append h]
        exact readExponent_plus hmark (more ++ after)
      -- what follows the number does not start with a sign either
      have hsign {sign : Char} (hs : sign = '-' ∨ sign = '+')
          (hno : ¬∃ more, s = sign :: more) (more : List Char) : s ++ after ≠ sign :: more := by
        intro heq
        cases s with
        | nil => rcases hs with rfl | rfl <;> exact absurd (h _ _ heq) (by decide)
        | cons d s => exact hno ⟨s, by rw [(List.cons.inj heq).1]⟩
      rw [readExponent_unsigned hmark (fun more heq => hminus ⟨more, heq⟩)
        (fun more heq => hplus ⟨more, heq⟩), ← exponentAfterSign_append h]
      exact readExponent_unsigned hmark (hsign (.inl rfl) hminus) (hsign (.inr rfl) hplus)
    · rw [readExponent_of_ne hmark, List.cons_append, readExponent_of_ne hmark]

/-- A zero in front stands alone, so that less than all numerals may be read. -/
theorem length_whole_le (numerals : List Char) :
    (if numerals.head? == some '0' then ['0'] else numerals).length ≤ numerals.length := by
  split
  · rename_i hzero
    exact List.length_pos_of_mem (List.mem_of_head? (beq_iff_eq.1 hzero))
  · exact Nat.le_refl _

/-- A number that is read to some place is read to that place in front of what ends it. -/
theorem readNumber_append (h : EndsValue after) {negative : Bool} {n : Number} {rest : List Char}
    (hread : readNumber negative s = some (n, rest)) :
    readNumber negative (s ++ after) = some (n, rest ++ after) := by
  obtain ⟨htake, -⟩ := takeWhile_isNumeral_append (s := s) h
  unfold readNumber at hread ⊢
  rw [htake]
  dsimp only at hread ⊢
  -- the whole digits are in the text, so that dropping them leaves what follows alone
  have hsize := Nat.le_trans (length_whole_le (s.takeWhile isNumeral))
    (List.takeWhile_prefix isNumeral).length_le
  generalize (if (List.takeWhile isNumeral s).head? == some '0' then ['0']
    else List.takeWhile isNumeral s) = whole at hread hsize ⊢
  rw [List.drop_append_of_le_length hsize, readFraction_append h]
  dsimp only
  rw [readExponent_append h]
  dsimp only
  -- without digits there is no number to read
  split at hread
  · exact nomatch hread
  rename_i hsome
  rw [if_neg hsome]
  split at hread
  -- whether it has too many digits to be an integer does not depend on what follows
  · rename_i hint
    rw [if_pos hint]
    split at hread
    · exact nomatch hread
    · rename_i hmost
      rw [if_neg hmost]
      cases hread
      rfl
  · rename_i hint
    rw [if_neg hint]
    cases hread
    rfl

/-- A number starts with a digit. -/
theorem exists_numeral_of_readNumber {negative : Bool} {hit : Number × List Char}
    (h : readNumber negative s = some hit) : ∃ c rest, s = c :: rest ∧ isNumeral c = true := by
  cases s with
  | nil => exact nomatch h
  | cons c rest =>
    refine ⟨c, rest, rfl, ?_⟩
    by_cases hc : isNumeral c = true
    · exact hc
    · simp [readNumber, hc] at h

end

/-! ## Words and numbers -/

/-- In front of a digit there is no word. -/
theorem readScalar_numeral {c : Char} (hc : isNumeral c = true) (rest : List Char) :
    readScalar (c :: rest)
      = (readNumber false (c :: rest)).map fun (n, after) => (.number n, after) := by
  have hne {d : Char} (hd : isNumeral d = false) : d ≠ c := by
    rintro rfl
    exact nomatch hc.symm.trans hd
  simp [readScalar, afterPattern?, hne (d := 'n') rfl, hne (d := 't') rfl, hne (d := 'f') rfl,
    hne (d := 'N') rfl, hne (d := 'I') rfl, hne (d := '-') rfl]
  split
  · rename_i more heq
    exact absurd (List.cons.inj heq).1.symm (hne rfl)
  · rfl

theorem readScalar_minus {c : Char} (hc : isNumeral c = true) (rest : List Char) :
    readScalar ('-' :: c :: rest)
      = (readNumber true (c :: rest)).map fun (n, after) => (.number n, after) := by
  have hne : 'I' ≠ c := by
    rintro rfl
    exact nomatch hc
  simp [readScalar, afterPattern?, hne]

/-- A number whose text is read back to its end. -/
def ReadsBack (n : Number) : Prop := readScalar (writeNumber n) = some (.number n, [])

/-- The text of a number: the name of what is not finite, or digits, perhaps behind a sign. -/
inductive IsNumberText : List Char → Prop
  | nan : IsNumberText ['N', 'a', 'N']
  | infinity : IsNumberText "Infinity".toList
  | negativeInfinity : IsNumberText "-Infinity".toList
  | positive {c : Char} (hc : isNumeral c = true) (rest : List Char) : IsNumberText (c :: rest)
  | negative {c : Char} (hc : isNumeral c = true) (rest : List Char) :
    IsNumberText ('-' :: c :: rest)

theorem isNumberText_of_readScalar {s : List Char} {n : Number}
    (h : readScalar s = some (.number n, [])) : IsNumberText s := by
  unfold readScalar at h
  dsimp only at h
  split at h
  · rename_i hit hword
    obtain ⟨⟨word, j⟩, hmem, hfound⟩ := List.exists_of_findSome?_eq_some hword
    obtain ⟨rest, hrest, rfl⟩ := Option.map_eq_some_iff.1 hfound
    cases h
    rw [eq_append_of_afterPattern? hrest, List.append_nil]
    simp only [List.mem_cons, Prod.mk.injEq, reduceCtorEq, and_false, false_or, List.not_mem_nil,
      or_false] at hmem
    -- of the words only three are numbers
    rcases hmem with ⟨rfl, -⟩ | ⟨rfl, -⟩ | ⟨rfl, -⟩
    · exact .nan
    · exact .infinity
    · exact .negativeInfinity
  · split at h
    · obtain ⟨hit, hnumber, -⟩ := Option.map_eq_some_iff.1 h
      obtain ⟨c, rest, rfl, hc⟩ := exists_numeral_of_readNumber hnumber
      exact .negative hc rest
    · obtain ⟨hit, hnumber, -⟩ := Option.map_eq_some_iff.1 h
      obtain ⟨c, rest, rfl, hc⟩ := exists_numeral_of_readNumber hnumber
      exact .positive hc rest

/-- A number is read in front of a comma or a closing bracket. -/
theorem readScalar_append {n : Number} (h : ReadsBack n) {after : List Char}
    (hafter : EndsValue after) :
    readScalar (writeNumber n ++ after) = some (.number n, after) := by
  have hread : readScalar (writeNumber n) = some (.number n, []) := h
  have htext := isNumberText_of_readScalar hread
  -- what a number is written as no longer matters, only that its text is one
  generalize writeNumber n = s at hread htext ⊢
  cases htext with
  | nan =>
    cases hread
    rfl
  | infinity =>
    cases hread
    rfl
  | negativeInfinity =>
    cases hread
    rfl
  | positive hc rest =>
    rw [readScalar_numeral hc] at hread
    obtain ⟨⟨m, tail⟩, hnumber, heq⟩ := Option.map_eq_some_iff.1 hread
    cases heq
    have happend := readNumber_append hafter hnumber
    rw [List.cons_append] at happend ⊢
    rw [readScalar_numeral hc, happend]
    rfl
  | negative hc rest =>
    rw [readScalar_minus hc] at hread
    obtain ⟨⟨m, tail⟩, hnumber, heq⟩ := Option.map_eq_some_iff.1 hread
    cases heq
    have happend := readNumber_append hafter hnumber
    rw [List.cons_append] at happend
    rw [List.cons_append, List.cons_append, readScalar_minus hc, happend]
    rfl

/-! ## Integers -/

theorem isNumeral_of_isDigit {c : Char} (h : c.isDigit = true) : isNumeral c = true := by
  simpa [isNumeral, Char.isDigit, Char.le_def] using h

theorem isNumeral_of_mem_toDigits {n : Nat} {c : Char} (h : c ∈ Nat.toDigits 10 n) :
    isNumeral c = true :=
  isNumeral_of_isDigit (Nat.isDigit_of_mem_toDigits (by decide) (by decide) h)

theorem numeralsValue_eq_ofDigitChars (digits : List Char) :
    numeralsValue digits = Nat.ofDigitChars 10 digits 0 := by
  rw [numeralsValue, Nat.ofDigitChars_eq_foldl]
  simp only [Nat.mul_comm]

theorem numeralsValue_toDigits (n : Nat) : numeralsValue (Nat.toDigits 10 n) = n := by
  rw [numeralsValue_eq_ofDigitChars, Nat.ofDigitChars_ten_toDigits]

/-- Only zero starts with a zero. -/
theorem head?_toDigits {n : Nat} (h : (Nat.toDigits 10 n).head? = some '0') : n = 0 := by
  induction n using Nat.base_induction 10 (by decide) with
  | single m hm =>
    rw [Nat.toDigits_of_lt_base hm] at h
    simpa using h
  | digit m k hk hm ih =>
    -- the first digit is that of the number without its last digit
    have hhead : (Nat.toDigits 10 m).head? = some '0' := by
      obtain ⟨c, rest, hdigits⟩ :=
        List.exists_cons_of_ne_nil (Nat.toDigits_ne_nil (n := m) (b := 10))
      rw [← Nat.toDigits_append_toDigits (by decide) hm hk, hdigits] at h
      rw [hdigits]
      exact h
    have hzero := ih hhead
    omega

theorem takeWhile_isNumeral_toDigits (n : Nat) :
    (Nat.toDigits 10 n).takeWhile isNumeral = Nat.toDigits 10 n := by
  have htake : (Nat.toDigits 10 n ++ []).takeWhile isNumeral
      = Nat.toDigits 10 n ++ [].takeWhile isNumeral :=
    List.takeWhile_append_of_pos fun _ hc => isNumeral_of_mem_toDigits hc
  simpa using htake

theorem readNumber_toDigits {n : Nat} (h : (Nat.toDigits 10 n).length ≤ mostDigits)
    (negative : Bool) :
    readNumber negative (Nat.toDigits 10 n)
      = some (.int (if negative then -(n : Int) else n), []) := by
  -- a leading zero ends the whole part, but only zero itself has one
  have hwhole : (if (Nat.toDigits 10 n).head? == some '0' then ['0'] else Nat.toDigits 10 n)
      = Nat.toDigits 10 n := by
    split
    · rename_i hzero
      rw [head?_toDigits (beq_iff_eq.1 hzero)]
      rfl
    · rfl
  have hsome : (Nat.toDigits 10 n).isEmpty = false := by
    rw [List.isEmpty_eq_false_iff]
    exact Nat.toDigits_ne_nil
  rw [readNumber, takeWhile_isNumeral_toDigits]
  dsimp only
  rw [hwhole, hsome, List.drop_length, numeralsValue_toDigits]
  simp only [readFraction, readExponent]
  simp [Nat.not_lt.2 h]

/-- Integers are read back. -/
theorem readsBack_int {n : Int} (h : (Nat.toDigits 10 n.natAbs).length ≤ mostDigits) :
    ReadsBack (.int n) := by
  obtain ⟨c, rest, hdigits⟩ := List.exists_cons_of_ne_nil (Nat.toDigits_ne_nil (n := n.natAbs)
    (b := 10))
  have hc : isNumeral c = true := isNumeral_of_mem_toDigits (hdigits ▸ List.mem_cons_self)
  rw [ReadsBack, writeNumber, intText, String.toList_ofList]
  -- a sign is written in front of the digits of the absolute value
  split
  · rename_i hnegative
    have hread := readNumber_toDigits h true
    rw [hdigits] at hread ⊢
    rw [readScalar_minus hc, hread]
    have hn : -(n.natAbs : Int) = n := by omega
    rw [if_pos rfl, hn]
    rfl
  · rename_i hnegative
    have hread := readNumber_toDigits h false
    rw [hdigits] at hread ⊢
    rw [readScalar_numeral hc, hread]
    have hn : (n.natAbs : Int) = n := by omega
    rw [if_neg Bool.false_ne_true, hn]
    rfl

end BlockTemplate.Json
