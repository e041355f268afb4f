import BlockTemplate.Markup.Line
import Mathlib.Data.List.Basic

/-!
# Slices of a text

The characters from one position up to another, and what stands before and behind them.
-/

namespace BlockTemplate

section
variable {code : List Char} {start mid stop : Nat}

theorem slice_eq_drop_take (code : List Char) (start stop : Nat) :
    slice code start stop = (code.take stop).drop start := by
  rw [slice, List.drop_take]

theorem length_slice_of_le (hstop : stop ≤ code.length) :
    (slice code start stop).length = stop - start := by
  rw [slice, List.length_take, List.length_drop]
  omega

theorem eq_add_length_slice (hstart : start ≤ stop) (hstop : stop ≤ code.length) :
    stop = start + (slice code start stop).length := by
  rw [length_slice_of_le hstop, Nat.add_sub_cancel' hstart]

theorem slice_append_slice (hstart : start ≤ mid) (hstop : mid ≤ stop) :
    slice code start mid ++ slice code mid stop = slice code start stop := by
  have hdrop : code.drop mid = (code.drop start).drop (mid - start) := by
    rw [List.drop_drop]
    congr 1
    omega
  have hlength : stop - start = (mid - start) + (stop - mid) := by omega
  rw [slice, slice, slice, hdrop, hlength, List.take_add]

theorem slice_append_drop (h : start ≤ stop) :
    slice code start stop ++ code.drop stop = code.drop start := by
  have hdrop : code.drop stop = (code.drop start).drop (stop - start) := by
    rw [List.drop_drop]
    congr 1
    omega
  rw [slice, hdrop, List.take_append_drop]

theorem take_append_slice (h : start ≤ stop) :
    code.take start ++ slice code start stop = code.take stop := by
  have htake : code.take start = (code.take stop).take start := by
    rw [List.take_take, Nat.min_eq_left h]
  rw [slice_eq_drop_take, htake, List.take_append_drop]

/-! ## Positions in a slice -/

theorem take_add_slice {pos : Nat} (hpos : pos ≤ (slice code start stop).length) :
    code.take (start + pos) = code.take start ++ (slice code start stop).take pos := by
  rw [slice, List.length_take] at hpos
  rw [List.take_add, slice, List.take_take, Nat.min_eq_left (by omega)]

theorem drop_add_slice {pos : Nat} (hle : start ≤ stop)
    (hpos : pos ≤ (slice code start stop).length) :
    code.drop (start + pos) = (slice code start stop).drop pos ++ code.drop stop := by
  rw [← List.drop_drop, ← slice_append_drop hle, List.drop_append_of_le_length hpos]

theorem slice_length_slice (code : List Char) (start stop : Nat) :
    slice code start (start + (slice code start stop).length) = slice code start stop := by
  have hprefix := List.take_prefix (stop - start) (code.drop start)
  rw [slice, Nat.add_sub_cancel_left]
  exact (List.prefix_iff_eq_take.1 hprefix).symm

theorem slice_slice {first last : Nat} (hlast : last ≤ (slice code start stop).length) :
    slice (slice code start stop) first last = slice code (start + first) (start + last) := by
  rw [slice, List.length_take] at hlast
  rw [slice, slice, slice, List.drop_take, List.take_take, List.drop_drop, Nat.add_sub_add_left,
    Nat.min_eq_left (by omega)]

end

end BlockTemplate
