/-!
# Double-precision numbers

A number is kept as its exact dyadic value, so that comparison and truncation are exact integer
arithmetic and every rounding happens in one place, `Binary64.roundRatio`: to nearest, ties to the
even mantissa, with gradual underflow and overflow to infinity.

Two finite numbers may denote one value with different mantissas; nothing here looks at more than
the sign and the value.
-/

namespace BlockTemplate

/-- A double-precision number: not a number, an infinity, or plus or minus `mantissa * 2 ^
    exponent`. Zero keeps its sign. -/
inductive Binary64 where
  | nan
  | infinity (negative : Bool)
  | finite (negative : Bool) (mantissa : Nat) (exponent : Int)
deriving DecidableEq, Repr, Inhabited

/-- The integer nearest to `num / den`, a half going to the even neighbour. -/
def roundHalfEven (num den : Nat) : Nat :=
  let q := num / den
  let r := num % den
  if 2 * r < den then q
  else if den < 2 * r then q + 1
  else if q % 2 = 0 then q else q + 1

namespace Binary64

/-- Number of mantissa bits. -/
def precision : Nat := 53

/-- Exponent of the least positive number. -/
def minExponent : Int := -1074

/-- Exponent of the greatest finite number with a full mantissa. -/
def maxExponent : Int := 971

/-- The number nearest to `num / den`, for a positive `den`. -/
def roundRatio (negative : Bool) (num den : Nat) : Binary64 :=
  if num = 0 then .finite negative 0 0
  else
    -- the quotient lies between the powers of two with exponents `k - 1` and `k + 1`
    let k : Int := (num.log2 : Int) - den.log2
    let coarse := k - precision
    let above := num * Nat.pow 2 (-coarse).toNat / (den * Nat.pow 2 coarse.toNat)
    let exact := if Nat.pow 2 precision ≤ above then coarse + 1 else coarse
    let e := max exact minExponent
    let m := roundHalfEven (num * Nat.pow 2 (-e).toNat) (den * Nat.pow 2 e.toNat)
    -- rounding up may have filled one bit more
    let (m, e) := if m = Nat.pow 2 precision then (Nat.pow 2 (precision - 1), e + 1) else (m, e)
    if maxExponent < e then .infinity negative else .finite negative m e

/-- The number nearest to `n`, which is an infinity when `n` is too large. -/
def roundInt (n : Int) : Binary64 := roundRatio (n < 0) n.natAbs 1

/-- The integer `n` as a number, or nothing when it exceeds every finite number. -/
def ofInt? (n : Int) : Option Binary64 :=
  match roundInt n with
  | .infinity _ => none
  | x => some x

/-- The number nearest to `digits * 10 ^ exponent`. Magnitudes that are far out of range are settled
    from the number of bits of `digits` alone. -/
def ofDecimal (negative : Bool) (digits : Nat) (exponent : Int) : Binary64 :=
  if digits = 0 then .finite negative 0 0
  else if 310 < (digits.log2 : Int) * 3 / 10 + exponent then .infinity negative
  else if (digits.log2 : Int) * 31 / 100 + 1 + exponent < -330 then .finite negative 0 0
  else roundRatio negative (digits * Nat.pow 10 exponent.toNat) (Nat.pow 10 (-exponent).toNat)

/-- Plus or minus `mantissa * 2 ^ exponent`, in units of `2 ^ scale`, for a scale not above the
    exponent. -/
def scaled (negative : Bool) (mantissa : Nat) (exponent scale : Int) : Int :=
  let units : Int := Int.ofNat (mantissa * Nat.pow 2 (exponent - scale).toNat)
  if negative then -units else units

/-- The order of two numbers; nothing is ordered with what is not a number. -/
def compare? : Binary64 → Binary64 → Option Ordering
  | .nan, _ => none
  | _, .nan => none
  | .infinity a, .infinity b => some (compare b.toNat a.toNat)
  | .infinity a, .finite .. => some (if a then .lt else .gt)
  | .finite .., .infinity b => some (if b then .gt else .lt)
  | .finite n m e, .finite n' m' e' =>
    let scale := min e e'
    some (compare (scaled n m e scale) (scaled n' m' e' scale))

/-- The integer as an exact number, whatever its size. -/
def exactInt (n : Int) : Binary64 := .finite (n < 0) n.natAbs 0

def neg : Binary64 → Binary64
  | .nan => .nan
  | .infinity n => .infinity (!n)
  | .finite n m e => .finite (!n) m e

def isZero : Binary64 → Bool
  | .finite _ m _ => m = 0
  | _ => false

def isNegative : Binary64 → Bool
  | .nan => false
  | .infinity n => n
  | .finite n .. => n

def add : Binary64 → Binary64 → Binary64
  | .nan, _ => .nan
  | _, .nan => .nan
  | .infinity a, .infinity b => if a = b then .infinity a else .nan
  | .infinity a, .finite .. => .infinity a
  | .finite .., .infinity b => .infinity b
  | .finite n m e, .finite n' m' e' =>
    let scale := min e e'
    let sum := scaled n m e scale + scaled n' m' e' scale
    -- a sum of zero is negative only if both terms are
    if sum = 0 then .finite (n && n') 0 0
    else roundRatio (sum < 0) (sum.natAbs * Nat.pow 2 scale.toNat) (Nat.pow 2 (-scale).toNat)

def sub (x y : Binary64) : Binary64 := x.add y.neg

def mul : Binary64 → Binary64 → Binary64
  | .nan, _ => .nan
  | _, .nan => .nan
  | .infinity a, y => if y.isZero then .nan else .infinity (a != y.isNegative)
  | x, .infinity b => if x.isZero then .nan else .infinity (x.isNegative != b)
  | .finite n m e, .finite n' m' e' =>
    let scale := e + e'
    roundRatio (n != n') (m * m' * Nat.pow 2 scale.toNat) (Nat.pow 2 (-scale).toNat)

/-- The quotient, for a divisor other than zero. -/
def div : Binary64 → Binary64 → Binary64
  | .nan, _ => .nan
  | _, .nan => .nan
  | .infinity _, .infinity _ => .nan
  | .infinity a, .finite n .. => .infinity (a != n)
  | .finite n .., .infinity b => .finite (n != b) 0 0
  | .finite n m e, .finite n' m' e' =>
    let scale := e - e'
    roundRatio (n != n') (m * Nat.pow 2 scale.toNat) (m' * Nat.pow 2 (-scale).toNat)

/-- Magnitude of a finite number without its fraction. -/
def wholePart (mantissa : Nat) (exponent : Int) : Nat :=
  mantissa * Nat.pow 2 exponent.toNat / Nat.pow 2 (-exponent).toNat

/-- Whether a finite number has no fraction. -/
def isWhole (mantissa : Nat) (exponent : Int) : Bool :=
  mantissa % Nat.pow 2 (-exponent).toNat = 0

/-- The integer that a number equals, if it equals one. -/
def toInt? : Binary64 → Option Int
  | .finite n m e =>
    if isWhole m e then
      let whole : Int := wholePart m e
      some (if n then -whole else whole)
    else none
  | _ => none

end Binary64

end BlockTemplate
