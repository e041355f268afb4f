import BlockTemplate.Proofs.Markup.Closed

/-!
# Windows

The text between the extents of two markers, seen as a text of its own. A line that begins in front
of the window is told by the flag that comes with it, but nothing tells that its last line goes on
behind it. So the extent of a marker in a window is that in the whole text, unless the marker takes
the end of the window for the end of its line.

## Key results

- `markerSpan_window_iff`: when the extent of a marker in a window is that in the whole text
- `isWindow_between`: between the extents of two markers there is a window
-/

namespace BlockTemplate

/-- Whether a slice of a text is a window: it does not start within an indent, and a bracket stands
    behind it, or behind blanks that follow it. -/
structure IsWindow (code : List Char) (start stop : Nat) : Prop where
  start_le : start ≤ stop
  indent : indentBefore code start = 0
  bracket : ∃ blanks rest, code.drop stop = blanks ++ '<' :: rest ∧ ∀ c ∈ blanks, isIndent c

/-- An extent in a slice as one in the text, in which the slice starts at the offset. -/
def shifted (offset : Nat) (span : Nat × Nat) : Nat × Nat := (offset + span.1, offset + span.2)

/-- Whether a marker takes the end of the text for the end of its line, and blanks with it: it
    begins its line, nothing but blanks follows it, and there is a blank before it or behind it. -/
def MistakesEnd (code : List Char) (lineStart : Bool) (start stop : Nat) : Prop :=
  positionBeginsLine code (start - indentBefore code start) lineStart
    ∧ (∀ c ∈ code.drop stop, isIndent c)
    ∧ (0 < indentBefore code start ∨ stop < code.length)

/-! ## Lines in a window -/

theorem beginsLine_append (before more : List Char) (lineStart : Bool) :
    beginsLine (before ++ more) lineStart = beginsLine before (beginsLine more lineStart) := by
  cases before <;> rfl

theorem restOfLine?_of_forall {s : List Char} (h : ∀ c ∈ s, isIndent c) :
    restOfLine? s = some s.length := by
  induction s with
  | nil => rfl
  | cons c s ih =>
    rw [List.forall_mem_cons] at h
    rw [restOfLine?_cons_of_isIndent h.1, ih h.2]
    rfl

theorem restOfLine?_cons_of_not_isIndent {c : Char} (hc : isIndent c = false) (s : List Char) :
    restOfLine? (c :: s)
      = if c = '\r' ∧ s.head? = some '\n' then some 2
        else if isLineEnd c then some 1 else none := by
  rw [restOfLine?, List.takeWhile_cons_of_neg (by simp [hc]),
    List.dropWhile_cons_of_neg (by simp [hc])]
  cases s <;> grind

/-- A line that goes on with blanks and a bracket does not end, and what follows a line that ends
    does not matter. -/
theorem restOfLine?_append_bracket {blanks : List Char} (hblanks : ∀ c ∈ blanks, isIndent c)
    (s rest : List Char) :
    restOfLine? (s ++ (blanks ++ '<' :: rest))
      = if ∀ c ∈ s, isIndent c then none else restOfLine? s := by
  induction s with
  | nil =>
    rw [List.nil_append, if_pos (by simp)]
    induction blanks with
    | nil => simp [restOfLine?_cons_of_not_isIndent, isIndent, isLineEnd]
    | cons c blanks ih =>
      rw [List.forall_mem_cons] at hblanks
      rw [List.cons_append, restOfLine?_cons_of_isIndent hblanks.1, ih hblanks.2]
      rfl
  | cons c s ih =>
    rw [List.cons_append]
    cases hc : isIndent c with
    | true =>
      rw [restOfLine?_cons_of_isIndent hc, restOfLine?_cons_of_isIndent hc, ih]
      simp only [List.forall_mem_cons, hc, true_and]
      split <;> rfl
    | false =>
      -- what is behind the text is no line break, so that only the text itself can end the line
      have hhead : (s ++ (blanks ++ '<' :: rest)).head? = some '\n' ↔ s.head? = some '\n' := by
        cases s with
        | cons d s => rfl
        | nil =>
          cases blanks with
          | nil => simp
          | cons d blanks =>
            have hd : d ≠ '\n' := fun h => absurd (hblanks d List.mem_cons_self) (by rw [h]; decide)
            simp [hd]
      rw [if_neg fun hall => Bool.false_ne_true (hc.symm.trans (hall c List.mem_cons_self))]
      simp only [restOfLine?_cons_of_not_isIndent hc, hhead]

section
variable {code : List Char} {start stop : Nat}

theorem positionBeginsLine_slice {pos : Nat} (hpos : pos ≤ (slice code start stop).length)
    (lineStart : Bool) :
    positionBeginsLine code (start + pos) lineStart = positionBeginsLine (slice code start stop) pos
      (positionBeginsLine code start lineStart) := by
  rw [positionBeginsLine, take_add_slice hpos, List.reverse_append, beginsLine_append]
  rfl

namespace IsWindow

/-- Something stands behind a window. -/
theorem stop_lt (h : IsWindow code start stop) : stop < code.length := by
  obtain ⟨blanks, rest, hdrop, -⟩ := h.bracket
  have hlength := congrArg List.length hdrop
  rw [List.length_drop, List.length_append, List.length_cons] at hlength
  omega

/-- What indents a position in a window does not reach beyond it. -/
theorem indentBefore_eq (h : IsWindow code start stop) {pos : Nat}
    (hpos : pos ≤ (slice code start stop).length) :
    indentBefore code (start + pos) = indentBefore (slice code start stop) pos := by
  have hindent := h.indent
  rw [indentBefore] at hindent
  rw [indentBefore, take_add_slice hpos, List.reverse_append, List.takeWhile_append]
  split
  · rename_i hall
    rw [List.length_append, hindent, Nat.add_zero, ← hall, indentBefore]
  · rfl

theorem restOfLine?_eq (h : IsWindow code start stop) {pos : Nat}
    (hpos : pos ≤ (slice code start stop).length) :
    restOfLine? (code.drop (start + pos))
      = if ∀ c ∈ (slice code start stop).drop pos, isIndent c then none
        else restOfLine? ((slice code start stop).drop pos) := by
  obtain ⟨blanks, rest, hdrop, hblanks⟩ := h.bracket
  rw [drop_add_slice h.start_le hpos, hdrop, restOfLine?_append_bracket hblanks]

end IsWindow

theorem indentBefore_le (code : List Char) (pos : Nat) : indentBefore code pos ≤ pos := by
  have hlength := (List.takeWhile_prefix isIndent (l := (code.take pos).reverse)).length_le
  rw [List.length_reverse, List.length_take] at hlength
  rw [indentBefore]
  omega

/-- The extent of a marker in a window is that in the whole text, unless the marker takes the end of
    the window for the end of its line. -/
theorem markerSpan_window_iff (h : IsWindow code start stop) {first last : Nat}
    (hle : first ≤ last) (hlast : last ≤ (slice code start stop).length) (lineStart : Bool) :
    shifted start
        (markerSpan (slice code start stop) first last (positionBeginsLine code start lineStart))
      = markerSpan code (start + first) (start + last) lineStart
    ↔ ¬MistakesEnd (slice code start stop) (positionBeginsLine code start lineStart) first
      last := by
  have hfirst := Nat.le_trans hle hlast
  have hindent := h.indentBefore_eq hfirst
  have hindentLe := indentBefore_le (slice code start stop) first
  have hleft : start + first - indentBefore code (start + first)
      = start + (first - indentBefore (slice code start stop) first) := by omega
  have hbegins : positionBeginsLine code
        (start + (first - indentBefore (slice code start stop) first)) lineStart
      = positionBeginsLine (slice code start stop)
        (first - indentBefore (slice code start stop) first)
        (positionBeginsLine code start lineStart) :=
    positionBeginsLine_slice (by omega) lineStart
  rw [MistakesEnd]
  simp only [markerSpan, hleft, hbegins, h.restOfLine?_eq hlast]
  by_cases hline : positionBeginsLine (slice code start stop)
      (first - indentBefore (slice code start stop) first) (positionBeginsLine code start lineStart)
  · simp only [hline, if_true, true_and]
    by_cases hblank : ∀ c ∈ (slice code start stop).drop last, isIndent c
    · -- the slice ends the line, while the text goes on with a bracket
      rw [if_pos hblank, restOfLine?_of_forall hblank, List.length_drop]
      simp only [shifted, Prod.mk.injEq]
      constructor
      · rintro ⟨hstart, hstop⟩ ⟨-, hbeside⟩
        omega
      · intro hnone
        have hbeside := not_or.1 fun hbeside => hnone ⟨hblank, hbeside⟩
        omega
    · rw [if_neg hblank]
      refine iff_of_true ?_ fun hmistakes => hblank hmistakes.1
      split <;> simp only [shifted, Nat.add_assoc]
  · simp only [hline]
    exact iff_of_true rfl fun hmistakes => Bool.false_ne_true hmistakes.1

/-! ## Windows between markers -/

variable {m m' : Marker}

theorem marker?_append_of_some {s : List Char} {size : Nat} (h : marker? s = some (m, size))
    (t : List Char) : marker? (s ++ t) = some (m, size) := by
  simp only [marker?, Option.bind_eq_bind, Option.bind_eq_some_iff, Option.pure_def] at h
  obtain ⟨content, hcontent, m, hm, h⟩ := h
  rw [marker?, comment?_append_of_some hcontent]
  simp only [Option.bind_eq_bind, Option.bind_some, hm, Option.pure_def, h]

/-- A marker in a slice is one in the text. -/
theorem MarkerAt.of_slice (hle : start ≤ stop) {first last : Nat}
    (h : MarkerAt (slice code start stop) first last m) :
    MarkerAt code (start + first) (start + last) m where
  start_le := Nat.add_le_add_left h.start_le start
  marker := by
    have hfirst := Nat.le_trans h.start_le h.stop_le
    rw [drop_add_slice hle hfirst, Nat.add_sub_add_left]
    exact marker?_append_of_some h.marker _

/-- Between the extents of two markers there is a window. -/
theorem isWindow_between {first last first' last' : Nat} (h : MarkerAt code first last m)
    (h' : MarkerAt code first' last' m') (hle : last ≤ first') (lineStart : Bool) :
    IsWindow code (markerSpan code first last lineStart).2
      (markerSpan code first' last' lineStart).1 where
  start_le := markerSpan_le_markerSpan h h' hle lineStart
  indent := by
    have hstart : (markerSpan code first last lineStart).2 ≤ first' :=
      markerSpan_le_start h' hle lineStart
    have hlt := Nat.lt_of_lt_of_le h'.start_lt h'.stop_le
    exact (isCut_markerSpan h lineStart).resolve_right (by omega)
  bracket := by
    obtain ⟨content, rest, hdrop, -, -⟩ := exists_comment_of_marker? h'.marker
    have hfirst := Nat.le_trans h'.start_le h'.stop_le
    have hspan := markerSpan_fst_le code first' last' lineStart
    refine ⟨slice code (markerSpan code first' last' lineStart).1 first',
      ['!', '-', '-'] ++ content ++ commentEnd ++ rest, ?_, ?_⟩
    · rw [← slice_append_drop hspan, hdrop]
      simp [commentStart]
    · rcases markerSpan_cases code first' last' lineStart with hbare | ⟨size, -, hline⟩
      · rw [hbare, slice, Nat.sub_self, List.take_zero]
        simp
      · rw [hline]
        exact isIndent_of_mem_slice hfirst

/-- A marker in a window of a text is followed by the bracket behind the window. -/
theorem IsWindow.not_mistakesEnd (h : IsWindow code start stop) {pos : Nat}
    (hpos : pos ≤ (slice code start stop).length) (first : Nat) (lineStart : Bool) :
    ¬MistakesEnd code lineStart first (start + pos) := by
  rintro ⟨-, hblank, -⟩
  obtain ⟨blanks, rest, hdrop, -⟩ := h.bracket
  have hbracket := hblank '<' (by rw [drop_add_slice h.start_le hpos, hdrop]; simp)
  exact absurd hbracket (by decide)

end

end BlockTemplate
