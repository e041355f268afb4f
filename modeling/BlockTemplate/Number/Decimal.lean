import BlockTemplate.Number.Binary64

/-!
# Decimal text of numbers

Two choices of digits for a finite number: the fewest that read back to it (`Decimal.shortest`), and
a fixed count of significant ones (`Decimal.significant`). Both compare exactly, by cross-multiplied
naturals. `DecimalLayout` holds the decisions of a written form and `DecimalLayout.write` applies
them.
-/

namespace BlockTemplate

/-- The value `digits * 10 ^ exponent`. -/
structure Decimal where
  digits : Nat
  exponent : Int
deriving DecidableEq, Repr

namespace Decimal

/-- Drop at most `fuel` trailing zeros of the digits. -/
def stripZeros : Nat → Decimal → Decimal
  | 0, d => d
  | fuel + 1, d =>
    if d.digits ≠ 0 ∧ d.digits % 10 = 0 then stripZeros fuel ⟨d.digits / 10, d.exponent + 1⟩ else d

/-- The order of `a * 10 ^ i` and `n * 2 ^ j`. -/
def compareScaled (a : Nat) (i : Int) (n : Nat) (j : Int) : Ordering :=
  compare (a * Nat.pow 10 i.toNat * Nat.pow 2 (-j).toNat)
    (n * Nat.pow 2 j.toNat * Nat.pow 10 (-i).toNat)

/-- The least `k` with `mantissa * 2 ^ exponent < 10 ^ k`, for a positive mantissa. It lies at most
    two above the binary logarithm times the logarithm of two. -/
def magnitude (mantissa : Nat) (exponent : Int) : Int :=
  let guess := ((mantissa.log2 : Int) + exponent) * 30103 / 100000
  let fits (i : Nat) : Bool := compareScaled 1 (guess + i) mantissa exponent == .gt
  guess + (((List.range 3).find? fits).getD 3 : Nat)

/-- The number in units of `10 ^ unit`, as a ratio. -/
def inUnits (mantissa : Nat) (exponent unit : Int) : Nat × Nat :=
  (mantissa * Nat.pow 2 exponent.toNat * Nat.pow 10 (-unit).toNat,
    Nat.pow 2 (-exponent).toNat * Nat.pow 10 unit.toNat)

/-- Whether the decimal lies among the reals that round to the number: within half the gap to the
    neighbour on either side, the ends included when the mantissa is even. Below a power of two the
    gap is half as wide. -/
def readsBack (mantissa : Nat) (exponent : Int) (d : Decimal) : Bool :=
  -- in quarters of the last mantissa bit, half a gap is two, or one below a power of two
  let narrow := mantissa = Nat.pow 2 (Binary64.precision - 1) ∧ Binary64.minExponent < exponent
  let low := if narrow then 4 * mantissa - 1 else 4 * mantissa - 2
  let ends : Bool := mantissa % 2 = 0
  let fromLow := compareScaled d.digits d.exponent low (exponent - 2)
  let fromHigh := compareScaled d.digits d.exponent (4 * mantissa + 2) (exponent - 2)
  (fromLow == .gt || (ends && fromLow == .eq)) && (fromHigh == .lt || (ends && fromHigh == .eq))

/-- The multiple of `10 ^ unit` that reads back; of two such neighbours the nearer, on a tie the
    even one. -/
def onGrid? (mantissa : Nat) (exponent unit : Int) : Option Decimal :=
  let (num, den) := inUnits mantissa exponent unit
  let below : Decimal := ⟨num / den, unit⟩
  let above : Decimal := ⟨num / den + 1, unit⟩
  match readsBack mantissa exponent below, readsBack mantissa exponent above with
  | true, true => some ⟨roundHalfEven num den, unit⟩
  | true, false => some below
  | false, true => some above
  | false, false => none

/-- The number itself as a decimal, all digits written out. -/
def exact (mantissa : Nat) (exponent : Int) : Decimal :=
  ⟨mantissa * Nat.pow 2 exponent.toNat * Nat.pow 5 (-exponent).toNat, min exponent 0⟩

/-- The fewest digits that read back to a positive number: grids are tried from one digit up, and
    seventeen digits always suffice. -/
def shortest (mantissa : Nat) (exponent : Int) : Decimal :=
  let k := magnitude mantissa exponent
  let found := (List.range 17).findSome? fun (n : Nat) => onGrid? mantissa exponent (k - (n + 1))
  stripZeros 20 (found.getD (exact mantissa exponent))

/-- A positive number rounded to `count` significant digits, trailing zeros dropped. -/
def significant (count mantissa : Nat) (exponent : Int) : Decimal :=
  let unit := magnitude mantissa exponent - count
  let (num, den) := inUnits mantissa exponent unit
  stripZeros (count + 1) ⟨roundHalfEven num den, unit⟩

end Decimal

/-- How a decimal is written. -/
structure DecimalLayout where
  /-- leading exponents below this one are written with an exponent -/
  plainFrom : Int
  /-- leading exponents from this one on are written with an exponent -/
  plainBelow : Int
  /-- whether a whole number keeps a point and a zero -/
  pointZero : Bool
  /-- the letter before an exponent -/
  mark : Char
deriving DecidableEq, Repr

namespace DecimalLayout

/-- An exponent: its sign, and at least two digits. -/
def exponentText (e : Int) : List Char :=
  let digits := Nat.toDigits 10 e.natAbs
  (if e < 0 then '-' else '+') :: (if digits.length < 2 then '0' :: digits else digits)

/-- The text of a positive decimal. -/
def write (layout : DecimalLayout) (d : Decimal) : List Char :=
  let digits := Nat.toDigits 10 d.digits
  let count : Int := digits.length
  let lead := count + d.exponent - 1
  -- `lead` is the exponent of the first digit
  if layout.plainFrom ≤ lead ∧ lead < layout.plainBelow then
    if 0 ≤ d.exponent then
      let whole := digits ++ List.replicate d.exponent.toNat '0'
      if layout.pointZero then whole ++ ['.', '0'] else whole
    else if 0 ≤ lead then
      let (whole, fraction) := digits.splitAt (lead + 1).toNat
      whole ++ '.' :: fraction
    else '0' :: '.' :: List.replicate (-lead - 1).toNat '0' ++ digits
  else
    match digits with
    | [] => []
    | first :: rest =>
      let fraction := if rest.isEmpty then [] else '.' :: rest
      first :: fraction ++ layout.mark :: exponentText lead

end DecimalLayout

end BlockTemplate
