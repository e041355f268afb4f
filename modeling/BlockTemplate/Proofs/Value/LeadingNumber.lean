import BlockTemplate.Condition.Evaluate
import BlockTemplate.Proofs.Value.Equality
import BlockTemplate.Proofs.Value.Order
import BlockTemplate.Proofs.Value.WrittenNumber

/-!
# The number at the start of a text

An arithmetic operator takes from a text the number at its start, a comparison takes a text for a
number if it is one as a whole. The number at the start is that of the longest prefix that is a
number as a whole, so that all operators see the same number in a text that is one.

## Key results

- `NumericText.exists_isLongestNumeric`: the prefix from which the number at the start is read
- `BinaryOperator.apply_of_countsAs`: operators on numbers and on texts that are numbers
- `toNumber_readsLongest`: both for any text
-/

namespace BlockTemplate

/-- The longest prefix of a text that is a number as a whole. -/
structure IsLongestNumeric (start s : List Char) : Prop where
  isPrefix : start <+: s
  isNumeric : IsNumeric start
  longest : ∀ other, other <+: s → IsNumeric other → other.length ≤ start.length

/-- The number itself, or a text that is the number as a whole. -/
inductive CountsAs (x : Number) : Value → Prop where
  | number : CountsAs x (.number x)
  | text {s : String} (h : parseNumber? s = some x) : CountsAs x (.text s)

/-- Operators that calculate with numbers or compare them. -/
def BinaryOperator.ReadsNumbers (op : BinaryOperator) : Prop :=
  op ∈ [multiply, divide, remainder, add, subtract, equal, unequal, less, greater, atMost, atLeast]

namespace NumericText

/-! ## The longest prefix -/

/-- What is read of a text reaches at least as far as any number at its start. -/
theorem exists_chars_append {w w' : WrittenNumber} {rest more : List Char}
    (h : take? (w.chars ++ rest) = some (w.value, rest))
    (heq : w'.chars ++ more = w.chars ++ rest) :
    ∃ read, w.chars = w'.chars ++ read ∧ read ++ rest = more := by
  obtain ⟨t, after, hread, hafter⟩ := exists_take?_append w' more
  rw [heq, h] at hread
  cases hread
  obtain ⟨read, rfl⟩ := hafter
  rw [← List.append_assoc] at heq
  exact ⟨read, (List.append_cancel_right heq).symm, rfl⟩

/-- Padding behind a number is not a part of a longer one. -/
theorem eq_nil_of_chars_append {w w' : WrittenNumber} {padding : List Char}
    (h : ∀ c ∈ padding, isPadding c) (heq : w.chars = w'.chars ++ padding) : padding = [] := by
  have hnothing : EndsNumber [] := nofun
  have hwhole := take?_append_of_ends w hnothing
  have hpadded := take?_append_of_ends w' (endsNumber_of_padding h)
  rw [List.append_nil, heq, hpadded] at hwhole
  exact (Prod.mk.inj (Option.some.inj hwhole)).2

theorem length_le_takeWhile {padding : List Char} (h : ∀ c ∈ padding, isPadding c)
    (rest : List Char) :
    padding.length ≤ ((padding ++ rest).takeWhile isPadding).length := by
  rw [List.takeWhile_append_of_pos h, List.length_append]
  exact Nat.le_add_right _ _

/-- The number at the start of a text is that of the longest numeric prefix, which has the padding
    behind the number with it. -/
theorem exists_isLongestNumeric {s rest : List Char} {t : NumericText}
    (h : take? s = some (t, rest)) :
    ∃ start, IsLongestNumeric start s ∧ parse? start = some t := by
  obtain ⟨w, rfl, rfl⟩ := exists_of_take? h
  have hpadding : ∀ c ∈ rest.takeWhile isPadding, isPadding c :=
    fun c hc => List.mem_takeWhile_imp hc
  refine ⟨w.chars ++ rest.takeWhile isPadding, ⟨?_, ⟨w, _, hpadding, rfl⟩, ?_⟩,
    parse?_append_padding w hpadding⟩
  · exact (List.prefix_append_right_inj _).2 (List.takeWhile_prefix _)
  · rintro other ⟨behind, heq⟩ ⟨w', padding, hother, rfl⟩
    rw [List.append_assoc] at heq
    obtain ⟨read, hread, hmore⟩ := exists_chars_append h heq
    rw [List.length_append, List.length_append]
    have hends : read <+: padding ∨ padding <+: read :=
      List.prefix_or_prefix_of_prefix ⟨rest, hmore⟩ ⟨behind, rfl⟩
    rcases hends with hshort | hlong
    · -- all that was read behind the other number is padding, so nothing was
      have hnil : read = [] :=
        eq_nil_of_chars_append (fun c hc => hother c (hshort.subset hc)) hread
      have hle := length_le_takeWhile hother behind
      rw [hnil, List.append_nil] at hread
      rw [hnil, List.nil_append] at hmore
      rw [hread, hmore]
      exact Nat.add_le_add_left hle _
    · have hle := hlong.length_le
      rw [hread, List.length_append]
      omega

theorem not_isNumeric_of_take? {s : List Char} (h : take? s = none) {start : List Char}
    (hstart : start <+: s) : ¬ IsNumeric start := by
  rintro ⟨w, padding, hpadding, rfl⟩
  obtain ⟨rest, rfl⟩ := hstart
  obtain ⟨t, after, hread, -⟩ := exists_take?_append w (padding ++ rest)
  rw [← List.append_assoc, h] at hread
  exact nomatch hread

end NumericText

theorem parseNumber?_ofList (s : List Char) :
    parseNumber? (String.ofList s) = (NumericText.parse? s).map (·.value) := by
  rw [parseNumber?, String.toList_ofList]

theorem isSome_parseNumber?_iff (s : String) : (parseNumber? s).isSome ↔ IsNumeric s.toList := by
  rw [parseNumber?, Option.isSome_map, NumericText.isSome_parse?_iff]

/-- The number at the start of a text that is a number as a whole. -/
theorem leadingNumber_of_parse {s : String} {x : Number} (h : parseNumber? s = some x) :
    leadingNumber s = x := by
  obtain ⟨t, hparse, rfl⟩ := Option.map_eq_some_iff.1 h
  unfold NumericText.parse? at hparse
  unfold leadingNumber
  split at hparse
  · rename_i rest hread
    split at hparse
    · cases hparse
      rfl
    · exact nomatch hparse
  · exact nomatch hparse

/-- The number at the start of a text, or zero if no prefix is a number. -/
theorem leadingNumber_isOfLongest (s : String) :
    (∃ start, IsLongestNumeric start s.toList
        ∧ parseNumber? (String.ofList start) = some (leadingNumber s))
    ∨ (∀ start, start <+: s.toList → ¬ IsNumeric start) ∧ leadingNumber s = .int 0 := by
  unfold leadingNumber
  split
  · rename_i t rest hread
    obtain ⟨start, hlongest, hparse⟩ := NumericText.exists_isLongestNumeric hread
    refine .inl ⟨start, hlongest, ?_⟩
    rw [parseNumber?_ofList, hparse]
    rfl
  · rename_i hread
    exact .inr ⟨fun start hstart => NumericText.not_isNumeric_of_take? hread hstart, rfl⟩

/-! ## Operators -/

section
variable {x y : Number} {v w : Value}

theorem CountsAs.entries? (h : CountsAs x v) : v.entries? = none := by
  cases h <;> rfl

theorem CountsAs.toNumber (h : CountsAs x v) : v.toNumber = .ok x := by
  cases h with
  | number => rfl
  | text h => exact congrArg Except.ok (leadingNumber_of_parse h)

theorem CountsAs.compare (hv : CountsAs x v) (hw : CountsAs y w) : v.compare w = x.compare y := by
  rw [Value.compare_of_flat (.inl hv.entries?)]
  cases hv with
  | number =>
    cases hw with
    | number => rfl
    | text hw => rw [Value.compareFlat, Value.compareNumberText, hw]
  | text hv =>
    cases hw with
    | number => rw [Value.compareFlat, Value.compareNumberText, hv, x.compare_swap y]
    | text hw => rw [Value.compareFlat, Value.compareTexts, hv, hw]

/-- A number that a text is compared with is not written out if the text is one, too. -/
theorem CountsAs.needsUnwritable (hv : CountsAs x v) (hw : CountsAs y w) :
    v.needsUnwritable w = false := by
  cases hv with
  | number =>
    cases hw with
    | number => rfl
    | text hw => simp [Value.needsUnwritable, hw]
  | text hv =>
    cases hw with
    | number => simp [Value.needsUnwritable, hv]
    | text hw => rfl

theorem CountsAs.arithmetic (hv : CountsAs x v) (hw : CountsAs y w)
    (op : Number → Number → Except ArithmeticError Number) :
    v.arithmetic op w = (Value.number x).arithmetic op (.number y) := by
  unfold Value.arithmetic
  rw [hv.toNumber, hw.toNumber]
  rfl

theorem CountsAs.remainder (hv : CountsAs x v) (hw : CountsAs y w) :
    v.remainder w = (Value.number x).remainder (.number y) := by
  unfold Value.remainder
  rw [hv.toNumber]
  simp only [CountsAs.number.arithmetic hw]
  rfl

theorem CountsAs.add (hv : CountsAs x v) (hw : CountsAs y w) :
    v.add w = (Value.number x).add (.number y) := by
  unfold Value.add
  rw [hv.entries?, hw.entries?]
  exact hv.arithmetic hw _

/-- Operators that read numbers do not tell a number from a text that is the number. -/
theorem BinaryOperator.apply_of_countsAs {op : BinaryOperator} (hop : op.ReadsNumbers)
    (hv : CountsAs x v) (hw : CountsAs y w) :
    op.apply v w = op.apply (.number x) (.number y) := by
  have hcompared {α : Type} (outcome : α) :
      v.compared w outcome = (Value.number x).compared (.number y) outcome := by
    rw [Value.compared, Value.compared, hv.needsUnwritable hw]
    rfl
  have hcompare : v.compare w = (Value.number x).compare (.number y) := by
    rw [hv.compare hw, CountsAs.number.compare CountsAs.number]
  have hequal : v.looselyEqual w = (Value.number x).looselyEqual (.number y) := by
    rw [Value.looselyEqual_eq_compare, Value.looselyEqual_eq_compare, hcompare]
  cases op with
  | multiply | divide | subtract => exact hv.arithmetic hw _
  | remainder => exact hv.remainder hw
  | add => exact hv.add hw
  | equal | unequal => simp only [apply, hequal, hcompared]
  | less | greater | atMost | atLeast => simp only [apply, hcompare, hcompared]
  | has | hasSubstring | identical | notIdentical | and | or | xor => simp [ReadsNumbers] at hop

end

/-- An arithmetic operator sees in a text the number that the longest numeric prefix denotes, and
    zero if there is none. If the text is a number as a whole, then it is this number to all
    operators that calculate or compare, on either side of a number or of another such text. -/
theorem toNumber_readsLongest (s : String) :
    ∃ x, (Value.text s).toNumber = .ok x
      ∧ ((∃ start, IsLongestNumeric start s.toList
            ∧ parseNumber? (String.ofList start) = some x)
          ∨ (∀ start, start <+: s.toList → ¬ IsNumeric start) ∧ x = .int 0)
      ∧ ((parseNumber? s).isSome ↔ IsNumeric s.toList)
      ∧ (IsNumeric s.toList → parseNumber? s = some x
          ∧ ∀ op : BinaryOperator, op.ReadsNumbers → ∀ y v, CountsAs y v →
            op.apply (.text s) v = op.apply (.number x) (.number y)
            ∧ op.apply v (.text s) = op.apply (.number y) (.number x)) := by
  refine ⟨leadingNumber s, rfl, leadingNumber_isOfLongest s, isSome_parseNumber?_iff s, ?_⟩
  intro hnumeric
  obtain ⟨x, hparse⟩ := Option.isSome_iff_exists.1 ((isSome_parseNumber?_iff s).2 hnumeric)
  rw [leadingNumber_of_parse hparse]
  refine ⟨hparse, fun op hop y v hv => ?_⟩
  have hs : CountsAs x (.text s) := .text hparse
  exact ⟨BinaryOperator.apply_of_countsAs hop hs hv, BinaryOperator.apply_of_countsAs hop hv hs⟩

/-- A point may stand behind the digits, an exponent without digits is no part of the number, and a
    point alone is none. -/
example :
    leadingNumber " -1.50e+3 x" = .int (-1500) ∧ leadingNumber "2.e+" = .int 2
      ∧ leadingNumber ".e1" = .int 0 := by decide +kernel

end BlockTemplate
