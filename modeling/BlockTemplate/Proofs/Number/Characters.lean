import BlockTemplate.Json.Basic
import BlockTemplate.Value.Numeric
import Mathlib.Data.List.TakeWhile

/-!
# The characters of numbers

However a number is written, its text is made of letters, digits, signs and points. A text that is
read as a number has digits of some script, padding, signs, a point and the mark of an exponent:
each part of a number is read from the front of the text, and in the end only padding may be left.

## Key results

- `Number.isNumberChar_of_mem_shown`: rendered numbers
- `Json.isNumberChar_of_mem_writeNumber`: numbers in JSON
- `NumericText.isNumericChar_of_parse?`: numeric texts
-/

namespace BlockTemplate

/-! ## Written numbers -/

/-- Whether numbers are written with a character: with a letter, a digit, a sign or a point. -/
def isNumberChar (c : Char) : Bool := c.isAlphanum || c == '-' || c == '+' || c == '.'

theorem isNumberChar_of_mem_toDigits (n : Nat) : ∀ c ∈ Nat.toDigits 10 n, isNumberChar c := by
  intro c hc
  have hdigit : c.isDigit = true := Nat.isDigit_of_mem_toDigits (by decide) (by decide) hc
  rw [isNumberChar, Char.isAlphanum, hdigit, Bool.or_true, Bool.true_or, Bool.true_or, Bool.true_or]

/-- A sign may stand in front of a number. -/
theorem isNumberChar_of_mem_withSign {s : List Char} (h : ∀ c ∈ s, isNumberChar c)
    (negative : Prop) [Decidable negative] :
    ∀ c ∈ if negative then '-' :: s else s, isNumberChar c := by
  split
  · exact List.forall_mem_cons.2 ⟨rfl, h⟩
  · exact h

theorem isNumberChar_of_mem_intText (n : Int) : ∀ c ∈ (intText n).toList, isNumberChar c := by
  rw [intText, String.toList_ofList]
  exact isNumberChar_of_mem_withSign (isNumberChar_of_mem_toDigits _) _

namespace DecimalLayout

theorem isNumberChar_of_mem_exponentText (e : Int) : ∀ c ∈ exponentText e, isNumberChar c := by
  have hdigits := isNumberChar_of_mem_toDigits e.natAbs
  refine List.forall_mem_cons.2 ⟨by split <;> rfl, ?_⟩
  split
  · exact List.forall_mem_cons.2 ⟨rfl, hdigits⟩
  · exact hdigits

/-- A decimal is written with digits, a point, and an exponent behind its mark. -/
theorem isNumberChar_of_mem_write {layout : DecimalLayout} (hmark : isNumberChar layout.mark)
    (d : Decimal) : ∀ c ∈ layout.write d, isNumberChar c := by
  have hdigits := isNumberChar_of_mem_toDigits d.digits
  have hzeros (n : Nat) : ∀ c ∈ List.replicate n '0', isNumberChar c :=
    List.forall_mem_replicate.2 (.inr rfl)
  unfold write
  dsimp only
  generalize Nat.toDigits 10 d.digits = digits at hdigits
  split
  · split
    · -- a whole number has zeros behind its digits
      have hwhole := List.forall_mem_append.2 ⟨hdigits, hzeros d.exponent.toNat⟩
      split
      · exact List.forall_mem_append.2 ⟨hwhole, List.all_eq_true.1 rfl⟩
      · exact hwhole
    split
    · -- a point among the digits
      rw [List.splitAt_eq]
      refine List.forall_mem_append.2 ⟨fun c hc => ?_, List.forall_mem_cons.2 ⟨rfl, fun c hc => ?_⟩⟩
      · exact hdigits c (List.mem_of_mem_take hc)
      · exact hdigits c (List.mem_of_mem_drop hc)
    · -- a point before all digits
      exact List.forall_mem_append.2
        ⟨List.forall_mem_cons.2 ⟨rfl, List.forall_mem_cons.2 ⟨rfl, hzeros _⟩⟩, hdigits⟩
  · cases digits with
    | nil => exact nofun
    | cons first rest =>
      obtain ⟨hfirst, hrest⟩ := List.forall_mem_cons.1 hdigits
      refine List.forall_mem_append.2 ⟨List.forall_mem_cons.2 ⟨hfirst, ?_⟩,
        List.forall_mem_cons.2 ⟨hmark, isNumberChar_of_mem_exponentText _⟩⟩
      split
      · exact nofun
      · exact List.forall_mem_cons.2 ⟨rfl, hrest⟩

end DecimalLayout

namespace Number

theorem isNumberChar_of_mem_signed {s : List Char} (h : ∀ c ∈ s, isNumberChar c)
    (negative : Bool) : ∀ c ∈ (signed negative s).toList, isNumberChar c := by
  rw [signed, String.toList_ofList]
  exact isNumberChar_of_mem_withSign h _

theorem isNumberChar_of_mem_shown (n : Number) : ∀ c ∈ n.shown.toList, isNumberChar c := by
  cases n with
  | int n => exact isNumberChar_of_mem_intText n
  | float x =>
    cases x with
    | nan => exact List.all_eq_true.1 (by decide)
    | infinity negative =>
      cases negative <;> exact List.all_eq_true.1 (by decide)
    | finite negative m e =>
      rw [shown]
      split
      · exact isNumberChar_of_mem_intText _
      · exact isNumberChar_of_mem_signed (DecimalLayout.isNumberChar_of_mem_write rfl _) _

theorem isNumberChar_of_mem_floatLiteral (negative : Bool) (m : Nat) (e : Int) :
    ∀ c ∈ (floatLiteral negative m e).toList, isNumberChar c := by
  rw [floatLiteral]
  split
  · exact isNumberChar_of_mem_signed (List.all_eq_true.1 rfl) negative
  · exact isNumberChar_of_mem_signed (DecimalLayout.isNumberChar_of_mem_write rfl _) negative

end Number

theorem Json.isNumberChar_of_mem_writeNumber (n : Number) :
    ∀ c ∈ writeNumber n, isNumberChar c := by
  cases n with
  | int n => exact isNumberChar_of_mem_intText n
  | float x =>
    cases x with
    | nan => exact List.all_eq_true.1 rfl
    | infinity negative => cases negative <;> exact List.all_eq_true.1 (by decide)
    | finite negative m e => exact Number.isNumberChar_of_mem_floatLiteral negative m e

/-! ## Numeric texts -/

namespace NumericText

/-- Whether a numeric text can have a character: a digit, padding, a sign, a point, or the mark of
    an exponent. -/
def isNumericChar (c : Char) : Bool :=
  isDigit c || isPadding c || c == '-' || c == '+' || c == '.' || c == 'e' || c == 'E'

theorem isNumericChar_of_isDigit {c : Char} (h : isDigit c) : isNumericChar c := by
  rw [isNumericChar, h]
  rfl

theorem isNumericChar_of_isPadding {c : Char} (h : isPadding c) : isNumericChar c := by
  rw [isNumericChar, h, Bool.or_true]
  rfl

variable {s : List Char} {c : Char}

theorem mem_dropWhile_of_mem {p : Char → Bool} (hp : ∀ c, p c → isNumericChar c) (h : c ∈ s) :
    isNumericChar c ∨ c ∈ s.dropWhile p := by
  rw [← List.takeWhile_append_dropWhile (p := p) (l := s), List.mem_append] at h
  exact h.imp_left fun htake => hp c (List.mem_takeWhile_imp htake)

theorem mem_takeSign_of_mem (h : c ∈ s) : isNumericChar c ∨ c ∈ (takeSign s).2 := by
  unfold takeSign
  split
  · exact (List.mem_cons.1 h).imp_left fun hc => by rw [hc]; rfl
  · exact (List.mem_cons.1 h).imp_left fun hc => by rw [hc]; rfl
  · exact .inr h

theorem mem_rest_of_takeDecimal? {digits rest : List Char} {places : Nat}
    (hdecimal : takeDecimal? s = some (digits, places, rest)) (h : c ∈ s) :
    isNumericChar c ∨ c ∈ rest := by
  have hdrop := mem_dropWhile_of_mem (fun _ => isNumericChar_of_isDigit) h
  unfold takeDecimal? at hdecimal
  dsimp only at hdecimal
  split at hdecimal
  · rename_i afterPoint hpoint
    split at hdecimal
    · exact nomatch hdecimal
    · cases hdecimal
      rw [hpoint] at hdrop
      rcases hdrop with hc | hc
      · exact .inl hc
      rcases List.mem_cons.1 hc with rfl | hc
      · exact .inl rfl
      · exact mem_dropWhile_of_mem (fun _ => isNumericChar_of_isDigit) hc
  · split at hdecimal
    · exact nomatch hdecimal
    · cases hdecimal
      exact hdrop

theorem mem_takeExponent_of_mem (h : c ∈ s) : isNumericChar c ∨ c ∈ (takeExponent s).2 := by
  unfold takeExponent
  split
  · exact .inr h
  · rename_i mark afterMark
    split
    · rename_i hmark
      dsimp only
      split
      · exact .inr h
      · rcases List.mem_cons.1 h with rfl | h
        · rcases hmark with rfl | rfl <;> exact .inl rfl
        · rcases mem_takeSign_of_mem h with hc | hc
          · exact .inl hc
          · exact mem_dropWhile_of_mem (fun _ => isNumericChar_of_isDigit) hc
    · exact .inr h

/-- A text that is a number as a whole consists of digits and of what belongs to numbers. -/
theorem isNumericChar_of_parse? {t : NumericText} (h : parse? s = some t) :
    ∀ c ∈ s, isNumericChar c := by
  intro c hc
  unfold parse? at h
  split at h
  · rename_i t' rest htake
    split at h
    · rename_i hpadding
      unfold take? at htake
      dsimp only at htake
      split at htake
      · exact nomatch htake
      · rename_i digits places afterDigits hdecimal
        cases htake
        -- a character is in one of the pieces: padding, sign, decimal, exponent, padding
        rcases mem_dropWhile_of_mem (fun _ => isNumericChar_of_isPadding) hc with hc | hc
        · exact hc
        rcases mem_takeSign_of_mem hc with hc | hc
        · exact hc
        rcases mem_rest_of_takeDecimal? hdecimal hc with hc | hc
        · exact hc
        rcases mem_takeExponent_of_mem hc with hc | hc
        · exact hc
        exact isNumericChar_of_isPadding (List.all_eq_true.1 hpadding c hc)
    · exact nomatch h
  · exact nomatch h

end NumericText

end BlockTemplate
