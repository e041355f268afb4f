import BlockTemplate.Number.Text
import BlockTemplate.Proofs.Json.Number
import BlockTemplate.Proofs.Value.WrittenNumber

/-!
# Integers as texts

The text of an integer is read as that integer if a mantissa has room for its bits, the zeros at
their end apart: rounding to double precision leaves it alone. Other integers are read as one of
their neighbours.

## Key results

- `IntegerText.take?_chars`: what is read of the text of an integer
- `NumericText.value_whole_iff`: the whole numbers that rounding leaves alone
- `IntegerText.parseNumber?_eq_iff`: the texts that are read as they are
- `parseNumber?_intText`: integers of no more bits than a mantissa are read back
-/

namespace BlockTemplate

namespace Binary64

/-- A whole number that is finite in double precision is rounded once. -/
theorem ofDecimal_whole {n : Nat} (h : n < 2 ^ topExponent) (negative : Bool) :
    ofDecimal negative n 0 = roundRatio negative n 1 := by
  by_cases hzero : n = 0
  · rw [hzero]
    rfl
  have hlog : n.log2 < topExponent := (Nat.log2_lt hzero).2 h
  rw [topExponent] at hlog
  have hfar : ¬ (310 : Int) < (n.log2 : Int) * 3 / 10 + 0 := by omega
  have hnear : ¬ (n.log2 : Int) * 31 / 100 + 1 + 0 < -330 := by omega
  rw [ofDecimal, if_neg hzero, if_neg hfar, if_neg hnear]
  congr 1
  exact Nat.mul_one n

end Binary64

namespace NumericText

/-! ## Digits -/

theorem exists_of_isNumeral {c : Char} (h : Json.isNumeral c) :
    ∃ k < 10, c = Char.ofNat ('0'.toNat + k) := by
  simp only [Json.isNumeral, Bool.and_eq_true, decide_eq_true_eq, Char.le_def,
    UInt32.le_iff_toNat_le] at h
  obtain ⟨hlow, hhigh⟩ := h
  have hlow : '0'.toNat ≤ c.toNat := hlow
  have hhigh : c.toNat ≤ '0'.toNat + 9 := hhigh
  refine ⟨c.toNat - '0'.toNat, by omega, ?_⟩
  rw [Nat.add_sub_cancel' hlow, Char.ofNat_toNat]

theorem digitValue?_of_isNumeral {c : Char} (h : Json.isNumeral c) :
    digitValue? c = some (c.toNat - '0'.toNat) := by
  have hvalue : ∀ k < 10, digitValue? (Char.ofNat ('0'.toNat + k))
      = some ((Char.ofNat ('0'.toNat + k)).toNat - '0'.toNat) := by decide
  obtain ⟨k, hk, rfl⟩ := exists_of_isNumeral h
  exact hvalue k hk

theorem isDigit_of_isNumeral {c : Char} (h : Json.isNumeral c) : isDigit c := by
  rw [isDigit, digitValue?_of_isNumeral h]
  rfl

theorem digitsValue_eq_numeralsValue {digits : List Char} (h : ∀ c ∈ digits, Json.isNumeral c) :
    digitsValue digits = Json.numeralsValue digits := by
  have hfold (n : Nat) : digits.foldl (fun n c => n * 10 + (digitValue? c).getD 0) n
      = digits.foldl (fun n c => n * 10 + (c.toNat - '0'.toNat)) n := by
    induction digits generalizing n with
    | nil => rfl
    | cons c rest ih =>
      rw [List.forall_mem_cons] at h
      rw [List.foldl_cons, List.foldl_cons, digitValue?_of_isNumeral h.1, ih h.2]
      rfl
  exact hfold 0

end NumericText

/-! ## Texts of integers -/

/-- A decimal integer as it is written: perhaps a sign, and digits, which may start with zeros. -/
structure IntegerText where
  sign : Sign
  digits : List Char
  digits_ne_nil : digits ≠ []
  isDigit : ∀ c ∈ digits, c.isDigit

namespace IntegerText

def chars (t : IntegerText) : List Char := t.sign.chars ++ t.digits

def text (t : IntegerText) : String := String.ofList t.chars

/-- The number that the digits denote. -/
def magnitude (t : IntegerText) : Nat := Nat.ofDigitChars 10 t.digits 0

/-- The integer that the text denotes. -/
def value (t : IntegerText) : Int := Binary64.withSign t.sign.isMinus t.magnitude

@[simp] theorem natAbs_value (t : IntegerText) : t.value.natAbs = t.magnitude :=
  Binary64.natAbs_withSign ..

theorem isNumeral (t : IntegerText) : ∀ c ∈ t.digits, Json.isNumeral c := fun c hc =>
  Json.isNumeral_of_isDigit (t.isDigit c hc)

theorem exists_digits_eq (t : IntegerText) :
    ∃ c rest, t.digits = c :: rest ∧ Json.isNumeral c := by
  obtain ⟨c, rest, hdigits⟩ := List.exists_cons_of_ne_nil t.digits_ne_nil
  exact ⟨c, rest, hdigits, t.isNumeral c (hdigits ▸ List.mem_cons_self)⟩

/-- The text as that of a number without a point and an exponent. -/
def written (t : IntegerText) : WrittenNumber where
  padding := []
  sign := t.sign
  decimal :=
    { whole := t.digits
      fraction := none
      whole_areDigits := fun c hc => NumericText.isDigit_of_isNumeral (t.isNumeral c hc)
      fraction_areDigits := nofun
      digits_ne_nil := by simpa using t.digits_ne_nil }
  exponent := none
  isPadded := nofun

theorem chars_written (t : IntegerText) : t.written.chars = t.chars := by
  simp [WrittenNumber.chars, WrittenNumber.exponentChars, WrittenDecimal.chars, written, chars]

theorem value_written (t : IntegerText) :
    t.written.value = ⟨t.sign.isMinus, t.magnitude, 0⟩ := by
  have hdigits : digitsValue t.written.decimal.digits = t.magnitude := by
    rw [WrittenDecimal.digits, written, Option.getD_none, List.append_nil,
      NumericText.digitsValue_eq_numeralsValue t.isNumeral, Json.numeralsValue_eq_ofDigitChars]
    rfl
  rw [WrittenNumber.value, hdigits]
  rfl

/-- The text of an integer is read to its end. -/
theorem take?_chars (t : IntegerText) :
    NumericText.take? t.chars = some (⟨t.sign.isMinus, t.magnitude, 0⟩, []) := by
  have hnothing : NumericText.EndsNumber [] := nofun
  have hread := NumericText.take?_append_of_ends t.written hnothing
  rwa [List.append_nil, chars_written, value_written] at hread

theorem parse?_chars (t : IntegerText) :
    NumericText.parse? t.chars = some ⟨t.sign.isMinus, t.magnitude, 0⟩ := by
  rw [NumericText.parse?, take?_chars]
  rfl

/-- An integer without needless signs and zeros. -/
def ofInt (n : Int) : IntegerText where
  sign := if n < 0 then .minus else .unwritten
  digits := Nat.toDigits 10 n.natAbs
  digits_ne_nil := Nat.toDigits_ne_nil
  isDigit := fun _ hc => Nat.isDigit_of_mem_toDigits (by decide) (by decide) hc

theorem text_ofInt (n : Int) : (ofInt n).text = intText n := by
  rw [text, intText, chars, ofInt]
  split <;> rfl

theorem value_ofInt (n : Int) : (ofInt n).value = n := by
  have hsign : (ofInt n).sign.isMinus = decide (n < 0) := by
    unfold ofInt
    by_cases hn : n < 0 <;> simp [hn, Sign.isMinus]
  have hmagnitude : (ofInt n).magnitude = n.natAbs := Nat.ofDigitChars_ten_toDigits
  rw [value, hsign, hmagnitude, Binary64.withSign_natAbs]

end IntegerText

/-! ## Values -/

open Binary64 in
/-- A whole number in the range of integers is read as it is if its bits fit into a mantissa, and
    only then. -/
theorem NumericText.value_whole_iff {n : Nat} (h : n < intBound) (negative : Bool) :
    value ⟨negative, n, 0⟩ = .int (withSign negative n) ↔ HasMantissa n := by
  have hbound : n < 2 ^ 63 := h
  have hle := nearest_le n
  have hexact := toInt?_roundRatio (lt_top_of_lt (n := nearest n) (by omega)) negative
  rw [← ofDecimal_whole (lt_top_of_lt (by omega)) negative] at hexact
  rw [value, settle, hexact, ← nearest_eq_self_iff]
  dsimp only
  rw [natAbs_withSign]
  split
  · rw [Number.int.injEq, withSign_inj]
  · rename_i hlarge
    refine ⟨nofun, fun heq => absurd h ?_⟩
    rwa [heq] at hlarge

namespace IntegerText

variable {t : IntegerText}

theorem parseNumber?_text (t : IntegerText) :
    parseNumber? t.text = some (NumericText.value ⟨t.sign.isMinus, t.magnitude, 0⟩) := by
  rw [parseNumber?, text, String.toList_ofList, parse?_chars]
  rfl

theorem leadingNumber_text (t : IntegerText) :
    leadingNumber t.text = NumericText.value ⟨t.sign.isMinus, t.magnitude, 0⟩ := by
  rw [leadingNumber, text, String.toList_ofList, take?_chars]

/-- The text of an integer in range is read as that integer if its bits fit into a mantissa. -/
theorem parseNumber?_eq_iff (h : t.value.natAbs < NumericText.intBound) :
    parseNumber? t.text = some (.int t.value) ↔ Binary64.HasMantissa t.value.natAbs := by
  rw [natAbs_value] at h ⊢
  rw [parseNumber?_text, Option.some_inj, value, NumericText.value_whole_iff h]

end IntegerText

/-- Integers of no more bits than a mantissa are read back. -/
theorem parseNumber?_intText {n : Int} (h : n.natAbs ≤ 2 ^ Binary64.precision) :
    parseNumber? (intText n) = some (.int n) := by
  have hread := IntegerText.parseNumber?_eq_iff (t := .ofInt n)
  rw [IntegerText.text_ofInt, IntegerText.value_ofInt] at hread
  exact (hread (Nat.lt_of_le_of_lt h (by decide))).2 (Binary64.hasMantissa_of_le h)

end BlockTemplate
