import BlockTemplate.Condition.Evaluate
import BlockTemplate.Proofs.Number.Nearest
import BlockTemplate.Proofs.Outcome

/-!
# Remainders of integers

The remainder of two integers is that of their nearest double-precision numbers. So it is exact for
integers that are double-precision numbers themselves, and wrong for others.

## Key results

- `Number.mod_int`: the remainder of two integers of any size
- `remainder_of_isExact`: the remainder of double-precision numbers is exact
- `remainder_ne_of_odd`: that of an odd number with one bit too many is not
-/

namespace BlockTemplate

open Binary64

/-- The integer in double precision that is nearest to `n`, whatever its size. -/
def nearestInt (n : Int) : Int := withSign (n < 0) (nearest n.natAbs)

theorem nearestInt_eq_self {n : Int} (h : HasMantissa n.natAbs) : nearestInt n = n := by
  rw [nearestInt, nearest_eq_self_iff.2 h, withSign_natAbs]

namespace Number

theorem truncate_of_toInt? {x : Binary64} {n : Int} (h : x.toInt? = some n) :
    truncate (.float x) = .ok n := by
  cases x with
  | nan => cases h
  | infinity negative => cases h
  | finite negative m e =>
    rw [toInt?] at h
    split at h
    · exact congrArg Except.ok (Option.some.inj h)
    · cases h

/-- An integer goes to the nearest one in double precision. -/
theorem roundedInt_of_lt {n : Int} (h : nearest n.natAbs < 2 ^ topExponent) :
    roundedInt n = .ok (nearestInt n) := by
  have hexact := toInt?_roundRatio h (n < 0)
  unfold roundedInt toBinary64 ofInt? roundInt
  dsimp only
  cases hround : roundRatio (n < 0) n.natAbs 1 with
  | infinity negative =>
    rw [hround] at hexact
    exact nomatch hexact
  | nan =>
    rw [hround] at hexact
    exact nomatch hexact
  | finite negative m e =>
    rw [hround] at hexact
    exact truncate_of_toInt? hexact

theorem roundedInt_of_le {n : Int} (h : 2 ^ topExponent ≤ nearest n.natAbs) :
    roundedInt n = .error .tooLarge := by
  unfold roundedInt toBinary64 ofInt? roundInt
  dsimp only
  rw [roundRatio_eq_infinity h]
  rfl

theorem mod_int_eq (x : Int) {y : Int} (hne : y ≠ 0) :
    mod (.int x) (.int y) = (do
      let a ← roundedInt x
      let b ← roundedInt y
      return .int (a.tmod b)) := by
  unfold mod truncate
  rw [ok_bind, ok_bind, if_neg hne]

/-- The remainder of two integers is that of the nearest ones in double precision. -/
theorem mod_int_of_lt {x y : Int} (hne : y ≠ 0) (hx : nearest x.natAbs < 2 ^ topExponent)
    (hy : nearest y.natAbs < 2 ^ topExponent) :
    mod (.int x) (.int y) = .ok (.int ((nearestInt x).tmod (nearestInt y))) := by
  rw [mod_int_eq x hne, roundedInt_of_lt hx, roundedInt_of_lt hy]
  rfl

/-- Integers beyond all finite numbers have no remainder. -/
theorem mod_int_of_le {x y : Int} (hne : y ≠ 0)
    (h : 2 ^ topExponent ≤ nearest x.natAbs ∨ 2 ^ topExponent ≤ nearest y.natAbs) :
    mod (.int x) (.int y) = .error .tooLarge := by
  rw [mod_int_eq x hne]
  rcases Nat.lt_or_ge (nearest x.natAbs) (2 ^ topExponent) with hx | hx
  · have hy := h.resolve_left (Nat.not_le.2 hx)
    rw [roundedInt_of_lt hx, roundedInt_of_le hy]
    rfl
  · rw [roundedInt_of_le hx]
    rfl

end Number

/-! ## The operator -/

theorem apply_remainder_int (x y : Int) :
    BinaryOperator.remainder.apply (.number (.int x)) (.number (.int y))
      = match Number.mod (.int x) (.int y) with
        | .ok n => .ok (.number n)
        | .error e => .error (.arithmetic e) :=
  rfl

/-- Whether `r` is what is left of `x` when `y` is taken away from it as often as it fits: smaller
    than `y`, and of the sign of `x`. -/
structure IsRemainder (x y r : Int) : Prop where
  exists_quotient : ∃ q, x = y * q + r
  lt : r.natAbs < y.natAbs
  sign : r = 0 ∨ r.sign = x.sign

theorem isRemainder_tmod (x : Int) {y : Int} (hy : y ≠ 0) : IsRemainder x y (x.tmod y) where
  exists_quotient := ⟨x.tdiv y, (Int.mul_tdiv_add_tmod x y).symm⟩
  lt := by
    rw [Int.natAbs_tmod]
    exact Nat.mod_lt _ (Int.natAbs_pos.2 hy)
  sign := by
    have hsign := Int.sign_tmod x y
    split at hsign
    · exact .inl (Int.sign_eq_zero_iff_zero.1 hsign)
    · exact .inr hsign

/-- The remainder of integers that are double-precision numbers is exact. Integers have one if they
    are not rounded to an infinity. -/
theorem remainder_of_ints (x : Int) {y : Int} (hne : y ≠ 0) :
    (IsExact x.natAbs → IsExact y.natAbs →
      ∃ r, BinaryOperator.remainder.apply (.number (.int x)) (.number (.int y))
          = .ok (.number (.int r))
        ∧ IsRemainder x y r)
    ∧ ((∃ v, BinaryOperator.remainder.apply (.number (.int x)) (.number (.int y)) = .ok v)
      ↔ nearest x.natAbs < 2 ^ topExponent ∧ nearest y.natAbs < 2 ^ topExponent) := by
  constructor
  · intro hx hy
    have hmod := Number.mod_int_of_lt hne hx.nearest_lt hy.nearest_lt
    rw [nearestInt_eq_self hx.hasMantissa, nearestInt_eq_self hy.hasMantissa] at hmod
    exact ⟨x.tmod y, by rw [apply_remainder_int, hmod], isRemainder_tmod x hne⟩
  · constructor
    · rintro ⟨v, hv⟩
      by_contra hlarge
      rw [not_and_or, Nat.not_lt, Nat.not_lt] at hlarge
      rw [apply_remainder_int, Number.mod_int_of_le hne hlarge] at hv
      exact nomatch hv
    · rintro ⟨hx, hy⟩
      exact ⟨_, by rw [apply_remainder_int, Number.mod_int_of_lt hne hx hy]⟩

/-- The nanoseconds before an epoch by those of a day: many bits, but zeros at their end. -/
theorem remainder_of_ints_of_timestamp :
    (86400000000000 : Int) ≠ 0
    ∧ IsExact (-1700000000000000000 : Int).natAbs ∧ IsExact (86400000000000 : Int).natAbs
    ∧ ∃ r, BinaryOperator.remainder.apply (.number (.int (-1700000000000000000)))
          (.number (.int 86400000000000)) = .ok (.number (.int r))
        ∧ IsRemainder (-1700000000000000000) 86400000000000 r := by
  have hne : (86400000000000 : Int) ≠ 0 := by decide
  have hx : IsExact (-1700000000000000000 : Int).natAbs :=
    ⟨⟨12969970703125, 17, by decide, by decide⟩, lt_top_of_lt (by decide)⟩
  have hy : IsExact (86400000000000 : Int).natAbs :=
    ⟨hasMantissa_of_le (by decide), lt_top_of_lt (by decide)⟩
  exact ⟨hne, hx, hy, (remainder_of_ints _ hne).1 hx hy⟩

/-- The remainder of an odd number by two is zero if the number has one bit more than a mantissa. -/
theorem remainder_ne_of_odd :
    ¬ ∃ r, BinaryOperator.remainder.apply (.number (.int 9007199254740993)) (.number (.int 2))
        = .ok (.number (.int r))
      ∧ IsRemainder 9007199254740993 2 r := by
  have hzero : BinaryOperator.remainder.apply (.number (.int 9007199254740993)) (.number (.int 2))
      = .ok (.number (.int 0)) := by
    rfl
  rintro ⟨r, hr, ⟨q, hq⟩, -, -⟩
  cases hzero.symm.trans hr
  omega

end BlockTemplate
