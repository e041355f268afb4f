import BlockTemplate.Condition.Evaluate
import BlockTemplate.Proofs.Reference.Printing
import BlockTemplate.Proofs.Value.Equality

/-!
# Integers in templates

An integer that is written in a template, as an argument, as an operand or in a text that is used as
a number, is that integer if its bits fit into a mantissa. Texts of such integers compare like the
integers.

## Key results

- `Number.compare_int`: integers compare exactly
- `integerText_isKept`: what integers in range are read as, and how they compare
- `integerText_isLost_of_odd`: two integers with one bit too many that count as one
-/

namespace BlockTemplate

open Binary64

theorem Number.compare_int (m n : Int) : (Number.int m).compare (.int n) = Ord.compare m n := by
  have hscaled (n : Int) : scaled (n < 0) n.natAbs 0 0 = n := by
    have hunits : Int.ofNat (n.natAbs * Nat.pow 2 0) = n.natAbs :=
      congrArg Int.ofNat (Nat.mul_one n.natAbs)
    simp only [scaled, Int.sub_self, Int.toNat_zero, hunits, decide_eq_true_eq]
    omega
  have hcompare : (Number.int m).compare? (.int n) = some (Ord.compare m n) := by
    simp only [Number.compare?, Number.exact, exactInt, Binary64.compare?, min_self, hscaled]
  rw [Number.compare, hcompare, Option.getD_some]

namespace IntegerText

variable {s t : IntegerText}

theorem value_of_parse (h : parseNumber? t.text = some (.int t.value)) :
    NumericText.value ⟨t.sign.isMinus, t.magnitude, 0⟩ = .int t.value := by
  rw [parseNumber?_text] at h
  exact Option.some.inj h

theorem parse_chars (h : parseNumber? t.text = some (.int t.value)) :
    Argument.parse t.chars = .literal (.number (.int t.value)) := by
  have hword : literalWord? (String.ofList t.chars) = some (.number (.int t.value)) := by
    rw [← text, literalWord?_integerText, h]
    rfl
  exact Argument.parse_of_literal hword

theorem toNumber_text (h : parseNumber? t.text = some (.int t.value)) :
    (Value.text t.text).toNumber = .ok (.int t.value) := by
  rw [Value.toNumber, leadingNumber_text, value_of_parse h]

theorem compare_text (hs : parseNumber? s.text = some (.int s.value))
    (ht : parseNumber? t.text = some (.int t.value)) :
    (Value.text s.text).compare (.text t.text) = Ord.compare s.value t.value := by
  rw [Value.compare_of_flat (.inl rfl), Value.compareFlat, Value.compareTexts, hs, ht]
  exact Number.compare_int s.value t.value

/-- Texts of different integers are not equal. -/
theorem looselyEqual_text (hs : parseNumber? s.text = some (.int s.value))
    (ht : parseNumber? t.text = some (.int t.value)) :
    (Value.text s.text).looselyEqual (.text t.text) = (s.value == t.value) := by
  rw [Value.looselyEqual_eq_compare, compare_text hs ht, Bool.eq_iff_iff, beq_iff_eq, beq_iff_eq]
  exact Std.LawfulEqCmp.compare_eq_iff_eq

end IntegerText

/-- The text of an integer in the range of 64 signed bits is read as that integer if and only if its
    bits fit into a mantissa. Then it is that integer as an argument and as an operand, too, and
    compares like it with the text of any other such integer. -/
theorem integerText_isKept {s t : IntegerText} (hs : s.value.natAbs < NumericText.intBound)
    (ht : t.value.natAbs < NumericText.intBound) :
    (parseNumber? s.text = some (.int s.value) ↔ HasMantissa s.value.natAbs)
    ∧ (HasMantissa s.value.natAbs →
        Argument.parse s.chars = .literal (.number (.int s.value))
        ∧ (Value.text s.text).toNumber = .ok (.int s.value)
        ∧ (HasMantissa t.value.natAbs →
            (Value.text s.text).compare (.text t.text) = compare s.value t.value
            ∧ (Value.text s.text).looselyEqual (.text t.text) = (s.value == t.value))) := by
  have hsRead := IntegerText.parseNumber?_eq_iff hs
  refine ⟨hsRead, fun hsKept => ?_⟩
  have hsText := hsRead.2 hsKept
  refine ⟨IntegerText.parse_chars hsText, IntegerText.toNumber_text hsText, fun htKept => ?_⟩
  have htText := (IntegerText.parseNumber?_eq_iff ht).2 htKept
  exact ⟨IntegerText.compare_text hsText htText, IntegerText.looselyEqual_text hsText htText⟩

/-- The largest double-precision number in range, negated, and a power of two with a sign and zeros
    in front of it. -/
theorem integerText_isKept_of_large :
    ∃ s t : IntegerText, s.text = "-9223372036854774784" ∧ t.text = "+0001152921504606846976"
      ∧ s.value.natAbs < NumericText.intBound ∧ t.value.natAbs < NumericText.intBound
      ∧ parseNumber? s.text = some (.int (-9223372036854774784))
      ∧ Argument.parse s.chars = .literal (.number (.int (-9223372036854774784)))
      ∧ (Value.text s.text).compare (.text t.text) = .lt := by
  let s : IntegerText :=
    ⟨.minus, "9223372036854774784".toList, by decide, List.all_eq_true.1 (by decide)⟩
  let t : IntegerText :=
    ⟨.plus, "0001152921504606846976".toList, by decide, List.all_eq_true.1 (by decide)⟩
  have hs : s.value.natAbs < NumericText.intBound := by decide
  have ht : t.value.natAbs < NumericText.intBound := by decide
  have hsKept : HasMantissa s.value.natAbs := ⟨9007199254740991, 10, by decide, by decide⟩
  have htKept : HasMantissa t.value.natAbs := ⟨1, 60, by decide, by decide⟩
  obtain ⟨hread, hkept⟩ := integerText_isKept hs ht
  obtain ⟨hargument, -, hcompare⟩ := hkept hsKept
  exact ⟨s, t, by decide, by decide, hs, ht, hread.2 hsKept, hargument, (hcompare htKept).1⟩

/-- An odd integer with one bit more than a mantissa is read as the even one before it. -/
theorem integerText_isLost_of_odd :
    ∃ s t : IntegerText, s.text = "9007199254740993" ∧ t.text = "9007199254740992"
      ∧ s.value = 9007199254740993 ∧ t.value = 9007199254740992
      ∧ parseNumber? s.text = some (.int t.value)
      ∧ (Value.text s.text).compare (.text t.text) = .eq := by
  let s : IntegerText :=
    ⟨.unwritten, "9007199254740993".toList, by decide, List.all_eq_true.1 (by decide)⟩
  let t : IntegerText :=
    ⟨.unwritten, "9007199254740992".toList, by decide, List.all_eq_true.1 (by decide)⟩
  have hs : parseNumber? s.text = some (.int t.value) := by decide
  have ht : parseNumber? t.text = some (.int t.value) := by decide
  have hcompare : (Value.text s.text).compare (.text t.text) = .eq := by
    rw [Value.compare_of_flat (.inl rfl), Value.compareFlat, Value.compareTexts, hs, ht]
    exact (Number.compare_int _ _).trans (by decide)
  exact ⟨s, t, by decide, by decide, by decide, by decide, hs, hcompare⟩

end BlockTemplate
