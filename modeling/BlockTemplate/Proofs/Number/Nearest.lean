import BlockTemplate.Number.Arithmetic
import Mathlib

/-!
# Whole numbers in double precision

A whole number is rounded to a multiple of a power of two, the distance of its neighbours in double
precision. It is kept if its bits fit into a mantissa, the zeros at their end apart.

## Key results

- `Binary64.nearest_eq_self_iff`: the whole numbers that are kept
- `Binary64.toInt?_roundRatio`: what a whole number is rounded to
- `Binary64.roundRatio_eq_infinity`: what lies above every finite number
-/

namespace BlockTemplate

/-! ## Rounding a quotient -/

theorem roundHalfEven_mul_self {d : Nat} (hd : 0 < d) (q : Nat) :
    roundHalfEven (q * d) d = q := by
  have hrest : 2 * (q * d % d) < d := by
    rw [Nat.mul_mod_left]
    omega
  unfold roundHalfEven
  dsimp only
  rw [if_pos hrest, Nat.mul_div_cancel q hd]

theorem roundHalfEven_cases (n d : Nat) :
    (roundHalfEven n d = n / d ∧ 2 * (n % d) ≤ d)
      ∨ (roundHalfEven n d = n / d + 1 ∧ d ≤ 2 * (n % d)) := by
  unfold roundHalfEven
  dsimp only
  split
  · exact .inl ⟨rfl, by omega⟩
  split
  · exact .inr ⟨rfl, by omega⟩
  split
  · exact .inl ⟨rfl, by omega⟩
  · exact .inr ⟨rfl, by omega⟩

theorem le_roundHalfEven (n d : Nat) : n / d ≤ roundHalfEven n d := by
  rcases roundHalfEven_cases n d with ⟨h, -⟩ | ⟨h, -⟩ <;> omega

theorem roundHalfEven_le (n d : Nat) : roundHalfEven n d ≤ n / d + 1 := by
  rcases roundHalfEven_cases n d with ⟨h, -⟩ | ⟨h, -⟩ <;> omega

namespace Binary64

/-- The binary logarithm of the distance between the double-precision numbers about a whole number,
    or zero where they lie closer than the whole numbers. -/
def spacing (n : Nat) : Nat := n.log2 - (precision - 1)

/-- The whole number in double precision that is nearest to `n`, whatever its size. -/
def nearest (n : Nat) : Nat := roundHalfEven n (2 ^ spacing n) * 2 ^ spacing n

/-- Whether the bits of a whole number fit into a mantissa, the zeros at their end apart. -/
def HasMantissa (n : Nat) : Prop := ∃ m k, m < 2 ^ precision ∧ n = m * 2 ^ k

/-- All finite numbers lie below this power of two, which is too large to be computed in proofs. -/
@[irreducible]
def topExponent : Nat := 1024

/-- Whether a whole number is one of the double-precision numbers. -/
structure IsExact (n : Nat) : Prop where
  hasMantissa : HasMantissa n
  lt_top : n < 2 ^ topExponent

/-! ## Numbers that are kept -/

theorem lt_top_of_lt {n : Nat} (h : n < 2 ^ 64) : n < 2 ^ topExponent :=
  Nat.lt_of_lt_of_le h (Nat.pow_le_pow_right (by decide) (by rw [topExponent]; decide))

theorem hasMantissa_of_le {n : Nat} (h : n ≤ 2 ^ precision) : HasMantissa n := by
  rcases Nat.lt_or_eq_of_le h with h | rfl
  · exact ⟨n, 0, h, (Nat.mul_one n).symm⟩
  · exact ⟨1, precision, by decide, (Nat.one_mul _).symm⟩

/-- The bits of a number beyond the mantissa. -/
theorem lt_two_pow_spacing (n : Nat) : n < 2 ^ precision * 2 ^ spacing n := by
  rw [← Nat.pow_add]
  calc n < 2 ^ (n.log2 + 1) := Nat.lt_log2_self
    _ ≤ 2 ^ (precision + spacing n) := by
      refine Nat.pow_le_pow_right (by decide) ?_
      rw [spacing, precision]
      omega

theorem dvd_of_hasMantissa {n : Nat} (h : HasMantissa n) : 2 ^ spacing n ∣ n := by
  obtain ⟨m, k, hm, rfl⟩ := h
  by_cases hk : spacing (m * 2 ^ k) ≤ k
  · exact Nat.dvd_mul_left_of_dvd (Nat.pow_dvd_pow 2 hk) m
  -- the number has more bits than the mantissa and the zeros behind it
  have hzero : m * 2 ^ k ≠ 0 := by
    intro hzero
    rw [hzero] at hk
    exact hk (Nat.zero_le k)
  have hlow := Nat.log2_self_le hzero
  have hhigh : m * 2 ^ k < 2 ^ (precision + k) := by
    rw [Nat.pow_add]
    exact Nat.mul_lt_mul_of_pos_right hm (Nat.two_pow_pos k)
  have hlog : (m * 2 ^ k).log2 < precision + k :=
    (Nat.pow_lt_pow_iff_right (by decide)).1 (Nat.lt_of_le_of_lt hlow hhigh)
  rw [spacing, precision] at hk
  rw [precision] at hlog
  omega

theorem roundHalfEven_spacing_le (n : Nat) : roundHalfEven n (2 ^ spacing n) ≤ 2 ^ precision := by
  have hquotient : n / 2 ^ spacing n < 2 ^ precision :=
    Nat.div_lt_of_lt_mul (Nat.mul_comm _ _ ▸ lt_two_pow_spacing n)
  exact Nat.le_trans (roundHalfEven_le _ _) hquotient

theorem hasMantissa_nearest (n : Nat) : HasMantissa (nearest n) := by
  obtain ⟨m, k, hm, heq⟩ := hasMantissa_of_le (roundHalfEven_spacing_le n)
  exact ⟨m, k + spacing n, hm, by rw [nearest, heq, Nat.mul_assoc, Nat.pow_add]⟩

/-- The nearest number is the number itself if that has a mantissa. -/
theorem nearest_eq_self_iff {n : Nat} : nearest n = n ↔ HasMantissa n := by
  constructor
  · intro h
    exact h ▸ hasMantissa_nearest n
  · intro h
    obtain ⟨q, hq⟩ := dvd_of_hasMantissa h
    have hround : roundHalfEven n (2 ^ spacing n) = q := by
      calc roundHalfEven n (2 ^ spacing n)
          = roundHalfEven (q * 2 ^ spacing n) (2 ^ spacing n) := by rw [Nat.mul_comm q, ← hq]
        _ = q := roundHalfEven_mul_self (Nat.two_pow_pos _) q
    rw [nearest, hround, Nat.mul_comm, ← hq]

theorem log2_eq_of_spacing {n : Nat} (h : spacing n ≠ 0) :
    n.log2 = precision - 1 + spacing n := by
  rw [spacing] at h ⊢
  omega

/-- A number with more bits than the mantissa fills it. -/
theorem le_roundHalfEven_spacing {n : Nat} (h : spacing n ≠ 0) :
    2 ^ (precision - 1) ≤ roundHalfEven n (2 ^ spacing n) := by
  have hn : n ≠ 0 := by
    rintro rfl
    exact h rfl
  have hlow := Nat.log2_self_le hn
  rw [log2_eq_of_spacing h, Nat.pow_add] at hlow
  have hquotient := (Nat.le_div_iff_mul_le (Nat.two_pow_pos (spacing n))).2 hlow
  exact Nat.le_trans hquotient (le_roundHalfEven _ _)

theorem IsExact.nearest_lt {n : Nat} (h : IsExact n) : nearest n < 2 ^ topExponent := by
  rw [nearest_eq_self_iff.2 h.hasMantissa]
  exact h.lt_top

theorem two_pow_spacing_le {n : Nat} (h : n ≠ 0) : 2 ^ spacing n ≤ n := by
  calc 2 ^ spacing n ≤ 2 ^ n.log2 := Nat.pow_le_pow_right (by decide) (Nat.sub_le _ _)
    _ ≤ n := Nat.log2_self_le h

theorem nearest_le (n : Nat) : nearest n ≤ 2 * n := by
  by_cases h : n = 0
  · rw [h]
    rfl
  have hunit := two_pow_spacing_le h
  calc nearest n ≤ (n / 2 ^ spacing n + 1) * 2 ^ spacing n :=
        Nat.mul_le_mul_right _ (roundHalfEven_le _ _)
    _ = n / 2 ^ spacing n * 2 ^ spacing n + 2 ^ spacing n := Nat.succ_mul _ _
    _ ≤ n + 2 ^ spacing n := Nat.add_le_add_right (Nat.div_mul_le_self _ _) _
    _ ≤ 2 * n := by omega

/-! ## Rounding to them -/

/-- A number with the mantissa and the exponent that rounding has found; a mantissa that has become
    one bit longer is halved. -/
def packed (negative : Bool) (m : Nat) (e : Int) : Binary64 :=
  let (m, e) := if m = 2 ^ precision then (2 ^ (precision - 1), e + 1) else (m, e)
  if maxExponent < e then .infinity negative else .finite negative m e

/-- A whole number is rounded to a mantissa of full width. -/
theorem roundRatio_whole {n : Nat} (hn : n ≠ 0) (negative : Bool) :
    roundRatio negative n 1
      = packed negative (roundHalfEven (n * 2 ^ (precision - 1 - n.log2)) (2 ^ spacing n))
          (n.log2 - (precision - 1 : Nat)) := by
  have hlow := Nat.log2_self_le hn
  have hone : Nat.log2 1 = 0 := by decide
  have hcoarse : (n.log2 : Int) - (Nat.log2 1 : Nat) - (precision : Nat)
      = n.log2 - (precision : Nat) := by
    rw [hone]
    omega
  have hdown : (-((n.log2 : Int) - (precision : Nat))).toNat = precision - n.log2 := by omega
  have hup : ((n.log2 : Int) - (precision : Nat)).toNat = n.log2 - precision := by omega
  -- the leading bit stands at the width of the mantissa
  have habove : 2 ^ precision ≤ n * 2 ^ (precision - n.log2) / 2 ^ (n.log2 - precision) := by
    rw [Nat.le_div_iff_mul_le (Nat.two_pow_pos _), ← Nat.pow_add]
    calc 2 ^ (precision + (n.log2 - precision))
        = 2 ^ n.log2 * 2 ^ (precision - n.log2) := by
          rw [← Nat.pow_add]
          congr 1
          omega
      _ ≤ n * 2 ^ (precision - n.log2) := Nat.mul_le_mul_right _ hlow
  have hexponent : (n.log2 : Int) - (precision : Nat) + 1 = n.log2 - (precision - 1 : Nat) := by
    rw [precision]
    omega
  have hmax : max ((n.log2 : Int) - (precision - 1 : Nat)) minExponent
      = n.log2 - (precision - 1 : Nat) := by
    rw [minExponent, precision]
    omega
  have hshift : (-((n.log2 : Int) - (precision - 1 : Nat))).toNat = precision - 1 - n.log2 := by
    omega
  have hspacing : ((n.log2 : Int) - (precision - 1 : Nat)).toNat = spacing n := by
    rw [spacing]
    omega
  unfold roundRatio
  rw [if_neg hn]
  simp only [hcoarse, Nat.pow_eq, hdown, hup, if_pos habove, hexponent, hmax, hshift, hspacing,
    Nat.one_mul]
  rfl

/-- A whole number with a sign. -/
def withSign (negative : Bool) (n : Nat) : Int := if negative then -(n : Int) else n

@[simp] theorem natAbs_withSign (negative : Bool) (n : Nat) :
    (withSign negative n).natAbs = n := by
  cases negative
  · exact Int.natAbs_natCast n
  · exact Int.natAbs_neg n

theorem withSign_inj {negative : Bool} {m n : Nat} :
    withSign negative m = withSign negative n ↔ m = n := by
  constructor
  · intro h
    simpa using congrArg Int.natAbs h
  · rintro rfl
    rfl

@[simp] theorem withSign_natAbs (n : Int) : withSign (decide (n < 0)) n.natAbs = n := by
  simp only [withSign, decide_eq_true_eq]
  omega

theorem toInt?_finite_natCast (negative : Bool) (m k : Nat) :
    (finite negative m k).toInt? = some (withSign negative (m * 2 ^ k)) := by
  have hwhole : isWhole m k = true := by
    rw [isWhole, Int.toNat_neg_natCast]
    exact decide_eq_true (Nat.mod_one m)
  have hpart : wholePart m k = m * 2 ^ k := by
    rw [wholePart, Int.toNat_neg_natCast, Int.toNat_natCast]
    exact Nat.div_one _
  rw [toInt?, if_pos hwhole, hpart]
  rfl

theorem toInt?_finite_shifted (negative : Bool) (n j : Nat) :
    (finite negative (n * 2 ^ j) (-(j : Int))).toInt? = some (withSign negative n) := by
  have hwhole : isWhole (n * 2 ^ j) (-(j : Int)) = true := by
    rw [isWhole, Int.neg_neg, Int.toNat_natCast]
    exact decide_eq_true (Nat.mul_mod_left n (2 ^ j))
  have hpart : wholePart (n * 2 ^ j) (-(j : Int)) = n := by
    rw [wholePart, Int.neg_neg, Int.toNat_natCast, Int.toNat_neg_natCast, Nat.pow_eq, Nat.pow_zero,
      Nat.mul_one]
    exact Nat.mul_div_cancel n (Nat.two_pow_pos j)
  rw [toInt?, if_pos hwhole, hpart]
  rfl

theorem packed_of_lt {m : Nat} (hm : m < 2 ^ precision) (negative : Bool) (e : Int) :
    packed negative m e = if maxExponent < e then infinity negative else finite negative m e := by
  rw [packed, if_neg (Nat.ne_of_lt hm)]

theorem packed_full (negative : Bool) (e : Int) :
    packed negative (2 ^ precision) e
      = if maxExponent < e + 1 then infinity negative
        else finite negative (2 ^ (precision - 1)) (e + 1) := by
  rw [packed, if_pos rfl]

/-- A full mantissa is a finite number if that is not too large. -/
theorem toInt?_packed {m k : Nat} (hfull : 2 ^ (precision - 1) ≤ m) (hm : m ≤ 2 ^ precision)
    (negative : Bool) (h : m * 2 ^ k < 2 ^ topExponent) :
    (packed negative m k).toInt? = some (withSign negative (m * 2 ^ k)) := by
  have hbound {e : Nat} (he : 2 ^ e ≤ m) : e + k < topExponent := by
    refine (Nat.pow_lt_pow_iff_right (by decide : 1 < 2)).1 (Nat.lt_of_le_of_lt ?_ h)
    rw [Nat.pow_add]
    exact Nat.mul_le_mul_right _ he
  -- a mantissa that is full by rounding up is halved, and the exponent gets one more
  rcases Nat.lt_or_eq_of_le hm with hm | rfl
  · have hk := hbound hfull
    have htop : ¬ maxExponent < (k : Int) := by
      rw [topExponent, precision] at hk
      rw [maxExponent]
      omega
    rw [packed_of_lt hm, if_neg htop, toInt?_finite_natCast]
  · have hk := hbound (Nat.le_refl _)
    have htop : ¬ maxExponent < (k : Int) + 1 := by
      rw [topExponent, precision] at hk
      rw [maxExponent]
      omega
    have hcast : (k : Int) + 1 = (k + 1 : Nat) := rfl
    rw [packed_full, if_neg htop, hcast, toInt?_finite_natCast]
    congr 2
    rw [Nat.pow_succ', ← Nat.mul_assoc, ← Nat.pow_succ]
    rfl

theorem packed_eq_infinity {m k : Nat} (hm : m ≤ 2 ^ precision) (negative : Bool)
    (h : 2 ^ topExponent ≤ m * 2 ^ k) : packed negative m k = infinity negative := by
  rcases Nat.lt_or_eq_of_le hm with hm | rfl
  · have hk : topExponent < precision + k := by
      refine (Nat.pow_lt_pow_iff_right (by decide : 1 < 2)).1 (Nat.lt_of_le_of_lt h ?_)
      rw [Nat.pow_add]
      exact Nat.mul_lt_mul_of_pos_right hm (Nat.two_pow_pos k)
    have htop : maxExponent < (k : Int) := by
      rw [topExponent, precision] at hk
      rw [maxExponent]
      omega
    rw [packed_of_lt hm, if_pos htop]
  · have hk : topExponent ≤ precision + k := by
      rw [← Nat.pow_add] at h
      exact (Nat.pow_le_pow_iff_right (by decide : 1 < 2)).1 h
    have htop : maxExponent < (k : Int) + 1 := by
      rw [topExponent, precision] at hk
      rw [maxExponent]
      omega
    rw [packed_full, if_pos htop]

/-- A number with at most 53 bits is kept, its mantissa shifted to the full width. -/
theorem roundRatio_of_log2_lt {n : Nat} (hn : n ≠ 0) (h : n.log2 < precision) (negative : Bool) :
    roundRatio negative n 1
      = finite negative (n * 2 ^ (precision - 1 - n.log2)) (-(precision - 1 - n.log2 : Nat)) := by
  have hspacing : spacing n = 0 := by
    rw [spacing]
    omega
  have hexponent : (n.log2 : Int) - (precision - 1 : Nat) = -(precision - 1 - n.log2 : Nat) := by
    omega
  have hmantissa : n * 2 ^ (precision - 1 - n.log2) < 2 ^ precision := by
    calc n * 2 ^ (precision - 1 - n.log2)
        < 2 ^ (n.log2 + 1) * 2 ^ (precision - 1 - n.log2) :=
          Nat.mul_lt_mul_of_pos_right Nat.lt_log2_self (Nat.two_pow_pos _)
      _ = 2 ^ precision := by
        rw [← Nat.pow_add]
        congr 1
        omega
  have htop : ¬ maxExponent < -((precision - 1 - n.log2 : Nat) : Int) := by
    rw [maxExponent]
    omega
  -- nothing is cut off, so that nothing is rounded
  have hround : roundHalfEven (n * 2 ^ (precision - 1 - n.log2)) (2 ^ spacing n)
      = n * 2 ^ (precision - 1 - n.log2) := by
    rw [hspacing, Nat.pow_zero]
    have hone := roundHalfEven_mul_self Nat.one_pos (n * 2 ^ (precision - 1 - n.log2))
    rwa [Nat.mul_one] at hone
  rw [roundRatio_whole hn, hround, hexponent, packed_of_lt hmantissa, if_neg htop]

theorem roundRatio_of_le_log2 {n : Nat} (h : precision ≤ n.log2) (negative : Bool) :
    roundRatio negative n 1
      = packed negative (roundHalfEven n (2 ^ spacing n)) (spacing n) := by
  have hn : n ≠ 0 := by
    rintro rfl
    exact absurd h (by decide)
  have hshift : precision - 1 - n.log2 = 0 := by omega
  have hexponent : (n.log2 : Int) - (precision - 1 : Nat) = spacing n := by
    rw [spacing]
    omega
  rw [roundRatio_whole hn, hshift, Nat.pow_zero, Nat.mul_one, hexponent]

theorem hasMantissa_of_log2_lt {n : Nat} (h : n.log2 < precision) : HasMantissa n :=
  hasMantissa_of_le
    (Nat.le_trans (Nat.le_of_lt Nat.lt_log2_self) (Nat.pow_le_pow_right (by decide) h))

/-- A whole number is rounded to the nearest one, if that is not too large. -/
theorem toInt?_roundRatio {n : Nat} (h : nearest n < 2 ^ topExponent) (negative : Bool) :
    (roundRatio negative n 1).toInt? = some (withSign negative (nearest n)) := by
  by_cases hn : n = 0
  · subst hn
    cases negative <;> rfl
  rcases Nat.lt_or_ge n.log2 precision with hlog | hlog
  · rw [roundRatio_of_log2_lt hn hlog, toInt?_finite_shifted,
      nearest_eq_self_iff.2 (hasMantissa_of_log2_lt hlog)]
  · have hspacing : spacing n ≠ 0 := by
      rw [spacing, precision]
      rw [precision] at hlog
      omega
    rw [roundRatio_of_le_log2 hlog]
    exact toInt?_packed (le_roundHalfEven_spacing hspacing) (roundHalfEven_spacing_le n) negative h

/-- What lies above every finite number is an infinity. -/
theorem roundRatio_eq_infinity {n : Nat} (h : 2 ^ topExponent ≤ nearest n) (negative : Bool) :
    roundRatio negative n 1 = infinity negative := by
  rcases Nat.lt_or_ge n.log2 precision with hlog | hlog
  · -- a number with so few bits is finite
    rw [nearest_eq_self_iff.2 (hasMantissa_of_log2_lt hlog)] at h
    have hsmall : n < 2 ^ topExponent := by
      calc n < 2 ^ (n.log2 + 1) := Nat.lt_log2_self
        _ ≤ 2 ^ topExponent := by
          refine Nat.pow_le_pow_right (by decide) ?_
          rw [precision] at hlog
          rw [topExponent]
          omega
    exact absurd h (Nat.not_le.2 hsmall)
  · rw [roundRatio_of_le_log2 hlog]
    exact packed_eq_infinity (roundHalfEven_spacing_le n) negative h

end Binary64

end BlockTemplate
