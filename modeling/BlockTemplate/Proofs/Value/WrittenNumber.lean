import BlockTemplate.Proofs.Number.Nearest
import BlockTemplate.Value.Numeric
import Mathlib

/-!
# Numbers as they are written

A number is written with padding in front of it, perhaps a sign, digits with perhaps a point among
them or at one of their ends, and perhaps an exponent. The reader goes on as long as it can, so that
it reads all of a number in front of any rest, and nothing but the number if the rest cannot go on.

## Key results

- `exists_of_take?`: what is read is a number as it is written
- `exists_take?_append`, `take?_append_of_ends`: a number in front of a rest is read to its end at
  least, and no further if the rest ends it
- `isSome_parse?_iff`: the texts that are numbers as a whole
-/

namespace BlockTemplate

/-! ## Forms -/

/-- How the sign of a number is written. -/
inductive Sign where
  | unwritten
  | plus
  | minus
deriving DecidableEq, Repr

namespace Sign

def chars : Sign → List Char
  | unwritten => []
  | plus => ['+']
  | minus => ['-']

def isMinus (sign : Sign) : Bool := sign = minus

end Sign

/-- Digits with perhaps a point among them or at one of their ends. -/
structure WrittenDecimal where
  whole : List Char
  fraction : Option (List Char)
  whole_areDigits : ∀ c ∈ whole, isDigit c
  fraction_areDigits : ∀ digits ∈ fraction, ∀ c ∈ digits, isDigit c
  digits_ne_nil : whole ++ fraction.getD [] ≠ []

namespace WrittenDecimal

def chars (d : WrittenDecimal) : List Char := d.whole ++ d.fraction.elim [] ('.' :: ·)

def digits (d : WrittenDecimal) : List Char := d.whole ++ d.fraction.getD []

/-- The number of digits behind the point. -/
def places (d : WrittenDecimal) : Nat := (d.fraction.getD []).length

end WrittenDecimal

/-- A letter, perhaps a sign, and digits. -/
structure WrittenExponent where
  mark : Char
  sign : Sign
  digits : List Char
  isMark : mark = 'e' ∨ mark = 'E'
  areDigits : ∀ c ∈ digits, isDigit c
  digits_ne_nil : digits ≠ []

namespace WrittenExponent

def chars (e : WrittenExponent) : List Char := e.mark :: (e.sign.chars ++ e.digits)

def value (e : WrittenExponent) : Int := Binary64.withSign e.sign.isMinus (digitsValue e.digits)

end WrittenExponent

/-- A number with padding in front of it. -/
structure WrittenNumber where
  padding : List Char
  sign : Sign
  decimal : WrittenDecimal
  exponent : Option WrittenExponent
  isPadded : ∀ c ∈ padding, isPadding c

namespace WrittenNumber

def exponentChars (w : WrittenNumber) : List Char := w.exponent.elim [] WrittenExponent.chars

def chars (w : WrittenNumber) : List Char :=
  w.padding ++ (w.sign.chars ++ (w.decimal.chars ++ w.exponentChars))

/-- The number that is written. -/
def value (w : WrittenNumber) : NumericText where
  negative := w.sign.isMinus
  digits := digitsValue w.decimal.digits
  exponent := w.exponent.elim 0 WrittenExponent.value - w.decimal.places

end WrittenNumber

/-- A text that is a number as a whole, padding apart. -/
def IsNumeric (s : List Char) : Prop :=
  ∃ (w : WrittenNumber) (padding : List Char), (∀ c ∈ padding, isPadding c) ∧ s = w.chars ++ padding

/-! ## Characters -/

theorem ne_of_isDigit {c d : Char} (hc : isDigit c) (hd : isDigit d = false) : c ≠ d := by
  rintro rfl
  rw [hd] at hc
  exact Bool.false_ne_true hc

theorem isPadding_eq_false_of_isDigit {c : Char} (h : isDigit c) : isPadding c = false := by
  have hne {d : Char} (hd : isDigit d = false) : (c == d) = false :=
    beq_false_of_ne (ne_of_isDigit h hd)
  simp only [isPadding, hne (d := ' ') (by decide), hne (d := '\t') (by decide),
    hne (d := '\n') (by decide), hne (d := '\r') (by decide), hne (d := '\x0b') (by decide),
    hne (d := '\x0c') (by decide), Bool.or_self]

/-- The text starts with a digit or a point. -/
def StartsDecimal (s : List Char) : Prop := ∃ c rest, s = c :: rest ∧ (isDigit c ∨ c = '.')

theorem startsDecimal_of_digits {digits : List Char} (hne : digits ≠ [])
    (h : ∀ c ∈ digits, isDigit c) (rest : List Char) : StartsDecimal (digits ++ rest) := by
  obtain ⟨c, more, rfl⟩ := List.exists_cons_of_ne_nil hne
  exact ⟨c, more ++ rest, rfl, .inl (h c List.mem_cons_self)⟩

theorem WrittenDecimal.startsDecimal (d : WrittenDecimal) (rest : List Char) :
    StartsDecimal (d.chars ++ rest) := by
  obtain ⟨whole, fraction, hwhole, hfraction, hne⟩ := d
  cases whole with
  | cons c more => exact ⟨c, _, rfl, .inl (hwhole c List.mem_cons_self)⟩
  | nil =>
    cases fraction with
    | none => exact absurd rfl hne
    | some digits => exact ⟨'.', _, rfl, .inr rfl⟩

/-- An exponent starts with a letter, which ends the digits in front of it. -/
theorem WrittenExponent.head_chars (e : WrittenExponent) (rest : List Char) :
    ∀ c ∈ (e.chars ++ rest).head?, isDigit c = false ∧ c ≠ '.' := by
  rintro c hc
  cases hc
  rcases e.isMark with hmark | hmark <;> rw [hmark] <;> decide

/-! ## Signs and padding -/

namespace NumericText

theorem takeSign_append (sign : Sign) {s : List Char} (h : StartsDecimal s) :
    takeSign (sign.chars ++ s) = (sign.isMinus, s) := by
  cases sign with
  | plus => rfl
  | minus => rfl
  | unwritten =>
    obtain ⟨c, rest, rfl, hc⟩ := h
    have hne : c ≠ '-' ∧ c ≠ '+' := by
      rcases hc with hc | rfl
      · exact ⟨ne_of_isDigit hc (by decide), ne_of_isDigit hc (by decide)⟩
      · exact ⟨by decide, by decide⟩
    simp only [Sign.chars, List.nil_append]
    unfold takeSign
    split
    · rename_i heq
      exact absurd (List.cons.inj heq).1 hne.1
    · rename_i heq
      exact absurd (List.cons.inj heq).1 hne.2
    · rfl

theorem exists_of_takeSign (s : List Char) :
    ∃ sign : Sign, s = sign.chars ++ (takeSign s).2 ∧ sign.isMinus = (takeSign s).1 := by
  unfold takeSign
  split
  · exact ⟨.minus, rfl, rfl⟩
  · exact ⟨.plus, rfl, rfl⟩
  · exact ⟨.unwritten, rfl, rfl⟩

theorem dropWhile_isPadding_append {padding : List Char} (h : ∀ c ∈ padding, isPadding c)
    (sign : Sign) {s : List Char} (hs : StartsDecimal s) :
    (padding ++ (sign.chars ++ s)).dropWhile isPadding = sign.chars ++ s := by
  rw [List.dropWhile_append_of_pos h]
  cases sign with
  | plus => rfl
  | minus => rfl
  | unwritten =>
    obtain ⟨c, rest, rfl, hc⟩ := hs
    have hpadding : isPadding c = false := by
      rcases hc with hc | rfl
      · exact isPadding_eq_false_of_isDigit hc
      · decide
    exact List.dropWhile_cons_of_neg (Bool.eq_false_iff.1 hpadding)

/-! ## Decimals -/

/-- No digits stand at the start of a text whose first character is none. -/
theorem digits_of_head {s : List Char} (h : ∀ c ∈ s.head?, isDigit c = false) :
    s.takeWhile isDigit = [] ∧ s.dropWhile isDigit = s := by
  cases s with
  | nil => exact ⟨rfl, rfl⟩
  | cons c s =>
    have hc := Bool.eq_false_iff.1 (h c rfl)
    exact ⟨List.takeWhile_cons_of_neg hc, List.dropWhile_cons_of_neg hc⟩

theorem exists_of_takeDecimal? {s digits rest : List Char} {places : Nat}
    (h : takeDecimal? s = some (digits, places, rest)) :
    ∃ d : WrittenDecimal, s = d.chars ++ rest ∧ d.digits = digits ∧ d.places = places := by
  have hsplit : s.takeWhile isDigit ++ s.dropWhile isDigit = s := List.takeWhile_append_dropWhile
  have hwhole : ∀ c ∈ s.takeWhile isDigit, isDigit c := fun c hc => List.mem_takeWhile_imp hc
  -- digits, a point and digits, or digits alone; there is a digit in any case
  unfold takeDecimal? at h
  dsimp only at h
  split at h
  · rename_i afterPoint hdrop
    have hfraction : ∀ c ∈ afterPoint.takeWhile isDigit, isDigit c :=
      fun c hc => List.mem_takeWhile_imp hc
    split at h
    · exact nomatch h
    · rename_i hne
      cases h
      refine ⟨⟨_, some (afterPoint.takeWhile isDigit), hwhole, by simpa using hfraction, ?_⟩,
        ?_, rfl, rfl⟩
      · simpa [List.isEmpty_iff] using hne
      · have hafter : afterPoint.takeWhile isDigit ++ afterPoint.dropWhile isDigit = afterPoint :=
          List.takeWhile_append_dropWhile
        rw [WrittenDecimal.chars, Option.elim_some, List.append_assoc, List.cons_append, hafter,
          ← hdrop, hsplit]
  · split at h
    · exact nomatch h
    · rename_i hne
      cases h
      refine ⟨⟨_, none, hwhole, nofun, ?_⟩, ?_, ?_, rfl⟩
      · simpa [List.isEmpty_iff] using hne
      · rw [WrittenDecimal.chars, Option.elim_none, List.append_nil, hsplit]
      · exact List.append_nil _

section
variable {whole : List Char} (hwhole : ∀ c ∈ whole, isDigit c)

include hwhole in
theorem takeDecimal?_append_point {fraction : List Char} (hfraction : ∀ c ∈ fraction, isDigit c)
    (hne : whole ++ fraction ≠ []) (rest : List Char) :
    takeDecimal? (whole ++ '.' :: (fraction ++ rest))
      = some (whole ++ (fraction ++ rest.takeWhile isDigit),
          (fraction ++ rest.takeWhile isDigit).length, rest.dropWhile isDigit) := by
  have hpoint : ¬ isDigit '.' = true := by decide
  have htake : (whole ++ '.' :: (fraction ++ rest)).takeWhile isDigit = whole := by
    rw [List.takeWhile_append_of_pos hwhole, List.takeWhile_cons_of_neg hpoint, List.append_nil]
  have hdrop :
      (whole ++ '.' :: (fraction ++ rest)).dropWhile isDigit = '.' :: (fraction ++ rest) := by
    rw [List.dropWhile_append_of_pos hwhole, List.dropWhile_cons_of_neg hpoint]
  have hsome : ¬ (whole.isEmpty && (fraction ++ rest.takeWhile isDigit).isEmpty) = true := by
    simp only [Bool.and_eq_true, List.isEmpty_iff, List.append_eq_nil_iff]
    rintro ⟨rfl, rfl, -⟩
    exact hne rfl
  rw [takeDecimal?, htake, hdrop]
  simp only [List.takeWhile_append_of_pos hfraction, List.dropWhile_append_of_pos hfraction,
    if_neg hsome]

include hwhole in
theorem exists_takeDecimal?_append_whole (hne : whole ≠ []) (rest : List Char) :
    ∃ digits places after, takeDecimal? (whole ++ rest) = some (digits, places, after)
      ∧ after <:+ rest := by
  have htake : (whole ++ rest).takeWhile isDigit = whole ++ rest.takeWhile isDigit :=
    List.takeWhile_append_of_pos hwhole
  have hdrop : (whole ++ rest).dropWhile isDigit = rest.dropWhile isDigit :=
    List.dropWhile_append_of_pos hwhole
  have hsome : (whole ++ rest.takeWhile isDigit).isEmpty = false := by
    rw [List.isEmpty_eq_false_iff]
    exact fun h => hne (List.append_eq_nil_iff.1 h).1
  have hsuffix : rest.dropWhile isDigit <:+ rest := List.dropWhile_suffix _
  rw [takeDecimal?, htake, hdrop]
  dsimp only
  split
  · rename_i afterPoint hpoint
    rw [hpoint] at hsuffix
    rw [hsome, Bool.false_and, if_neg Bool.false_ne_true]
    exact ⟨_, _, _, rfl, (List.dropWhile_suffix _).trans ((List.suffix_cons _ _).trans hsuffix)⟩
  · rw [hsome, if_neg Bool.false_ne_true]
    exact ⟨_, _, _, rfl, hsuffix⟩

include hwhole in
theorem takeDecimal?_append_whole_of_ends (hne : whole ≠ []) {rest : List Char}
    (hrest : ∀ c ∈ rest.head?, isDigit c = false ∧ c ≠ '.') :
    takeDecimal? (whole ++ rest) = some (whole, 0, rest) := by
  have hstop := digits_of_head fun c hc => (hrest c hc).1
  have htake : (whole ++ rest).takeWhile isDigit = whole := by
    rw [List.takeWhile_append_of_pos hwhole, hstop.1, List.append_nil]
  have hdrop : (whole ++ rest).dropWhile isDigit = rest := by
    rw [List.dropWhile_append_of_pos hwhole, hstop.2]
  rw [takeDecimal?, htake, hdrop]
  dsimp only
  split
  · exact absurd rfl (hrest '.' rfl).2
  · rw [List.isEmpty_eq_false_iff.2 hne, if_neg Bool.false_ne_true]

end

/-- A decimal in front of a rest is read to its end at least. -/
theorem exists_takeDecimal?_append (d : WrittenDecimal) (rest : List Char) :
    ∃ digits places after, takeDecimal? (d.chars ++ rest) = some (digits, places, after)
      ∧ after <:+ rest := by
  obtain ⟨whole, fraction, hwhole, hfraction, hne⟩ := d
  rw [WrittenDecimal.chars, List.append_assoc]
  cases fraction with
  | none => exact exists_takeDecimal?_append_whole hwhole (by simpa using hne) rest
  | some fraction =>
    have hread := takeDecimal?_append_point hwhole (hfraction fraction rfl) hne rest
    exact ⟨_, _, _, hread, List.dropWhile_suffix _⟩

/-- A decimal is read as it is if the rest ends it. -/
theorem takeDecimal?_append_of_ends (d : WrittenDecimal) {rest : List Char}
    (hrest : ∀ c ∈ rest.head?, isDigit c = false ∧ c ≠ '.') :
    takeDecimal? (d.chars ++ rest) = some (d.digits, d.places, rest) := by
  obtain ⟨whole, fraction, hwhole, hfraction, hne⟩ := d
  rw [WrittenDecimal.chars, List.append_assoc]
  cases fraction with
  | none =>
    have hwholeNe : whole ≠ [] := by simpa using hne
    refine (takeDecimal?_append_whole_of_ends hwhole hwholeNe hrest).trans ?_
    exact congrArg (fun digits => some (digits, 0, rest)) (List.append_nil whole).symm
  | some fraction =>
    obtain ⟨htake, hdrop⟩ := digits_of_head fun c hc => (hrest c hc).1
    have hread := takeDecimal?_append_point hwhole (hfraction fraction rfl) hne rest
    rw [htake, hdrop, List.append_nil] at hread
    exact hread

/-! ## Exponents -/

theorem exists_of_takeExponent (s : List Char) :
    ∃ e : Option WrittenExponent, s = e.elim [] WrittenExponent.chars ++ (takeExponent s).2
      ∧ e.elim 0 WrittenExponent.value = (takeExponent s).1 := by
  cases s with
  | nil => exact ⟨none, rfl, rfl⟩
  | cons c afterMark =>
    obtain ⟨sign, hsign, hminus⟩ := exists_of_takeSign afterMark
    unfold takeExponent
    dsimp only
    -- a mark that no digit follows is not part of the number
    split
    · rename_i hmark
      split
      · exact ⟨none, rfl, rfl⟩
      · rename_i hne
        have hdigits : ∀ d ∈ (takeSign afterMark).2.takeWhile isDigit, isDigit d :=
          fun d hd => List.mem_takeWhile_imp hd
        refine ⟨some ⟨c, sign, _, hmark, hdigits, by simpa using hne⟩, ?_, ?_⟩
        · rw [Option.elim_some, WrittenExponent.chars, List.cons_append, List.append_assoc,
            List.takeWhile_append_dropWhile, ← hsign]
        · rw [Option.elim_some, WrittenExponent.value, hminus]
          rfl
    · exact ⟨none, rfl, rfl⟩

theorem takeExponent_suffix (s : List Char) : (takeExponent s).2 <:+ s := by
  obtain ⟨e, heq, -⟩ := exists_of_takeExponent s
  exact ⟨_, heq.symm⟩

theorem takeExponent_append (e : WrittenExponent) (rest : List Char) :
    takeExponent (e.chars ++ rest)
      = (Binary64.withSign e.sign.isMinus (digitsValue (e.digits ++ rest.takeWhile isDigit)),
          rest.dropWhile isDigit) := by
  have hsign := takeSign_append e.sign (startsDecimal_of_digits e.digits_ne_nil e.areDigits rest)
  have hne : (e.digits ++ rest.takeWhile isDigit).isEmpty = false := by
    rw [List.isEmpty_eq_false_iff]
    exact fun h => e.digits_ne_nil (List.append_eq_nil_iff.1 h).1
  rw [WrittenExponent.chars, List.cons_append, List.append_assoc, takeExponent]
  simp only [if_pos e.isMark, hsign, List.takeWhile_append_of_pos e.areDigits,
    List.dropWhile_append_of_pos e.areDigits, hne, Bool.false_eq_true, if_false]
  rfl

theorem takeExponent_of_ends {rest : List Char} (h : ∀ c ∈ rest.head?, c ≠ 'e' ∧ c ≠ 'E') :
    takeExponent rest = (0, rest) := by
  cases rest with
  | nil => rfl
  | cons c rest =>
    have hc := h c rfl
    exact if_neg (not_or.2 hc)

/-! ## Numbers -/

/-- A rest with which a number cannot go on. -/
def EndsNumber (rest : List Char) : Prop :=
  ∀ c ∈ rest.head?, isDigit c = false ∧ c ≠ '.' ∧ c ≠ 'e' ∧ c ≠ 'E'

theorem endsNumber_of_padding {padding : List Char} (h : ∀ c ∈ padding, isPadding c) :
    EndsNumber padding := by
  intro c hc
  have hpadding := h c (List.mem_of_mem_head? hc)
  have hne {d : Char} (hd : isPadding d = false) : c ≠ d := by
    rintro rfl
    rw [hd] at hpadding
    exact Bool.false_ne_true hpadding
  refine ⟨Bool.eq_false_iff.2 fun hdigit => ?_, hne (by decide), hne (by decide), hne (by decide)⟩
  rw [isPadding_eq_false_of_isDigit hdigit] at hpadding
  exact Bool.false_ne_true hpadding

/-- What is read is a number as it is written. -/
theorem exists_of_take? {s rest : List Char} {t : NumericText} (h : take? s = some (t, rest)) :
    ∃ w : WrittenNumber, s = w.chars ++ rest ∧ w.value = t := by
  obtain ⟨sign, hsign, hminus⟩ := exists_of_takeSign (s.dropWhile isPadding)
  have hpadding : ∀ c ∈ s.takeWhile isPadding, isPadding c := fun c hc => List.mem_takeWhile_imp hc
  unfold take? at h
  dsimp only at h
  split at h
  · exact nomatch h
  · rename_i digits places afterDigits hdecimal
    cases h
    obtain ⟨d, hd, rfl, rfl⟩ := exists_of_takeDecimal? hdecimal
    obtain ⟨e, he, hvalue⟩ := exists_of_takeExponent afterDigits
    refine ⟨⟨_, sign, d, e, hpadding⟩, ?_, ?_⟩
    · rw [WrittenNumber.chars, WrittenNumber.exponentChars, List.append_assoc, List.append_assoc,
        List.append_assoc, ← he, ← hd, ← hsign, List.takeWhile_append_dropWhile]
    · rw [WrittenNumber.value, hminus, hvalue]

/-- Padding and a sign are read in front of a decimal. -/
theorem take?_append (w : WrittenNumber) (rest : List Char) :
    take? (w.chars ++ rest)
      = (takeDecimal? (w.decimal.chars ++ (w.exponentChars ++ rest))).map
          fun (digits, places, after) =>
            (⟨w.sign.isMinus, digitsValue digits, (takeExponent after).1 - places⟩,
              (takeExponent after).2) := by
  have hstarts := w.decimal.startsDecimal (w.exponentChars ++ rest)
  rw [WrittenNumber.chars, List.append_assoc, List.append_assoc, List.append_assoc, take?,
    dropWhile_isPadding_append w.isPadded w.sign hstarts, takeSign_append w.sign hstarts]
  dsimp only
  cases takeDecimal? (w.decimal.chars ++ (w.exponentChars ++ rest)) <;> rfl

/-- A number in front of a rest is read to its end at least. -/
theorem exists_take?_append (w : WrittenNumber) (rest : List Char) :
    ∃ t after, take? (w.chars ++ rest) = some (t, after) ∧ after <:+ rest := by
  obtain ⟨padding, sign, d, exponent, hpadding⟩ := w
  rw [take?_append]
  cases exponent with
  | none =>
    obtain ⟨digits, places, after, hread, hafter⟩ := exists_takeDecimal?_append d rest
    simp only [WrittenNumber.exponentChars, Option.elim_none, List.nil_append, hread,
      Option.map_some]
    exact ⟨_, _, rfl, (takeExponent_suffix after).trans hafter⟩
  | some e =>
    have hread := takeDecimal?_append_of_ends d (e.head_chars rest)
    simp only [WrittenNumber.exponentChars, Option.elim_some, hread, Option.map_some,
      takeExponent_append]
    exact ⟨_, _, rfl, List.dropWhile_suffix _⟩

/-- A number is read as it is if the rest ends it. -/
theorem take?_append_of_ends (w : WrittenNumber) {rest : List Char} (h : EndsNumber rest) :
    take? (w.chars ++ rest) = some (w.value, rest) := by
  obtain ⟨padding, sign, d, exponent, hpadding⟩ := w
  rw [take?_append]
  cases exponent with
  | none =>
    have hread := takeDecimal?_append_of_ends d fun c hc => ⟨(h c hc).1, (h c hc).2.1⟩
    have hnone := takeExponent_of_ends fun c hc => (h c hc).2.2
    simp only [WrittenNumber.exponentChars, Option.elim_none, List.nil_append, hread,
      Option.map_some, hnone]
    rfl
  | some e =>
    have hread := takeDecimal?_append_of_ends d (e.head_chars rest)
    obtain ⟨htake, hdrop⟩ := digits_of_head fun c hc => (h c hc).1
    simp only [WrittenNumber.exponentChars, Option.elim_some, hread, Option.map_some,
      takeExponent_append, htake, hdrop, List.append_nil]
    rfl

/-- A number and padding behind it are read as the number. -/
theorem parse?_append_padding (w : WrittenNumber) {padding : List Char}
    (h : ∀ c ∈ padding, isPadding c) : parse? (w.chars ++ padding) = some w.value := by
  rw [parse?, take?_append_of_ends w (endsNumber_of_padding h)]
  exact if_pos (List.all_eq_true.2 h)

theorem isSome_parse?_iff {s : List Char} : (parse? s).isSome ↔ IsNumeric s := by
  constructor
  · intro h
    unfold parse? at h
    split at h
    · rename_i t rest hread
      split at h
      · rename_i hpadding
        obtain ⟨w, hs, -⟩ := exists_of_take? hread
        exact ⟨w, rest, List.all_eq_true.1 hpadding, hs⟩
      · exact nomatch h
    · exact nomatch h
  · rintro ⟨w, padding, hpadding, rfl⟩
    rw [parse?_append_padding w hpadding]
    rfl

end NumericText

end BlockTemplate
