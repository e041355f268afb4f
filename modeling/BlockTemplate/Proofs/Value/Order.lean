import BlockTemplate.Value.Compare
import Mathlib.Order.Compare

/-!
# The order of scalars

Numbers, texts and truth values compare the other way round when they are exchanged, and so do two
scalars of any kinds. What is not a number counts as equal to every number, on whichever side it is.

## Key results

- `Number.compare_swap`: integers and double-precision numbers, mixed
- `Value.compareFlat_swap`: scalars of any kinds
-/

namespace BlockTemplate

theorem compareNat_swap (m n : Nat) : compare m n = (compare n m).swap := Std.OrientedCmp.eq_swap

theorem Binary64.compare?_swap (x y : Binary64) :
    x.compare? y = (y.compare? x).map Ordering.swap := by
  cases x with
  | nan => cases y <;> rfl
  | infinity a =>
    cases y with
    | nan => rfl
    | infinity b => exact congrArg some (compareNat_swap b.toNat a.toNat)
    | finite n m e => cases a <;> rfl
  | finite n m e =>
    cases y with
    | nan => rfl
    | infinity b => cases b <;> rfl
    | finite n' m' e' =>
      rw [compare?, compare?, Int.min_comm e' e]
      exact congrArg some Std.OrientedCmp.eq_swap

theorem Number.compare_swap (a b : Number) : a.compare b = (b.compare a).swap := by
  rw [compare, compare, compare?, compare?, Binary64.compare?_swap]
  cases b.exact.compare? a.exact <;> rfl

theorem compareBool_swap (a b : Bool) : compareBool a b = (compareBool b a).swap :=
  compareNat_swap a.toNat b.toNat

theorem compareChars_swap (s t : List Char) : compareChars s t = (compareChars t s).swap := by
  induction s generalizing t with
  | nil => cases t <;> rfl
  | cons a s ih =>
    cases t with
    | nil => rfl
    | cons b t =>
      rw [compareChars, compareChars, Ordering.swap_then, ← ih t, ← compareNat_swap]

theorem compareText_swap (s t : String) : compareText s t = (compareText t s).swap :=
  compareChars_swap s.toList t.toList

namespace Value

theorem compareTexts_swap (s t : String) : compareTexts s t = (compareTexts t s).swap := by
  rw [compareTexts, compareTexts]
  cases parseNumber? s with
  | none => cases parseNumber? t <;> exact compareText_swap s t
  | some x =>
    cases parseNumber? t with
    | none => exact compareText_swap s t
    | some y => exact x.compare_swap y

/-- Two scalars that are exchanged compare the other way round. -/
theorem compareFlat_swap {v w : Value} (hv : v.isScalar) (hw : w.isScalar) :
    v.compareFlat w = (w.compareFlat v).swap := by
  match v, w with
  | .null, .null => rfl
  | .null, .bool _ | .null, .number _ | .bool _, .null | .number _, .null =>
    exact compareBool_swap ..
  | .null, .text _ | .text _, .null => exact compareText_swap ..
  | .bool _, .bool _ | .bool _, .number _ | .bool _, .text _ => exact compareBool_swap ..
  | .number _, .bool _ | .text _, .bool _ => exact compareBool_swap ..
  | .number a, .number b => exact a.compare_swap b
  | .number _, .text _ => exact Ordering.swap_swap.symm
  | .text _, .number _ => rfl
  | .text s, .text t => exact compareTexts_swap s t
  | .sequence .., _ | .mapping .., _ | .object .., _ => exact nomatch hv
  | _, .sequence .. | _, .mapping .. | _, .object .. => exact nomatch hw

end Value

end BlockTemplate
