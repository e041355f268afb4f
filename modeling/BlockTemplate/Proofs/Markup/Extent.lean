import BlockTemplate.Proofs.Markup.Search
import BlockTemplate.Proofs.Markup.Slice

/-!
# Extents of markers

The extent of a marker is its comment and, if the comment is alone on its line, the rest of that
line. No extent reaches into another one.

## Key results

- `markerSpan_le_markerSpan`: extents do not overlap
- `isOf_extentAt`: an extent is a marker, with blanks and a line break around it at most
-/

namespace BlockTemplate

/-! ## Comments on their own -/

/-- The first occurrence of a pattern is found without what stands behind it. -/
theorem splitAtPattern?_take {pattern s before after : List Char}
    (h : splitAtPattern? pattern s = some (before, after)) :
    s = before ++ pattern ++ after
      ∧ splitAtPattern? pattern (before ++ pattern) = some (before, []) := by
  induction s generalizing before with
  | nil =>
    cases pattern with
    | nil =>
      cases h
      exact ⟨rfl, rfl⟩
    | cons p pattern => cases h
  | cons c rest ih =>
    simp only [splitAtPattern?] at h
    split at h
    · rename_i hafter
      cases h
      have hself := afterPattern?_append_self pattern []
      rw [List.append_nil] at hself
      refine ⟨eq_append_of_afterPattern? hafter, ?_⟩
      rw [List.nil_append]
      cases pattern with
      | nil => rfl
      | cons p pattern => rw [splitAtPattern?, hself]
    · rename_i hnone
      obtain ⟨⟨before', after'⟩, hsplit, heq⟩ := Option.map_eq_some_iff.1 h
      cases heq
      obtain ⟨hrest, hshort⟩ := ih hsplit
      -- a pattern that starts in the shorter text would also start in the longer one
      have hhere : afterPattern? pattern (c :: (before' ++ pattern)) = none := by
        rw [Option.eq_none_iff_forall_ne_some]
        intro found hfound
        have hmore := afterPattern?_append_of_some hfound after'
        rw [List.cons_append, ← hrest, hnone] at hmore
        cases hmore
      refine ⟨by rw [hrest]; rfl, ?_⟩
      rw [List.cons_append, splitAtPattern?, hhere, hshort]
      rfl

/-- A marker is a comment, and what stands behind the comment does not matter. -/
theorem exists_comment_of_marker? {s : List Char} {m : Marker} {size : Nat}
    (h : marker? s = some (m, size)) :
    ∃ content rest, s = commentStart ++ content ++ commentEnd ++ rest
      ∧ size = (commentStart ++ content ++ commentEnd).length
      ∧ marker? (commentStart ++ content ++ commentEnd) = some (m, size) := by
  simp only [marker?, comment?, Option.bind_eq_bind, Option.pure_def, Option.bind_eq_some_iff,
    Option.some.injEq, Prod.mk.injEq] at h
  obtain ⟨content, ⟨inner, hstart, ⟨before, after⟩, hsplit, rfl⟩, _, hcontent, rfl, rfl⟩ := h
  obtain ⟨hinner, hshort⟩ := splitAtPattern?_take hsplit
  refine ⟨before, after, ?_, ?_, ?_⟩
  · rw [eq_append_of_afterPattern? hstart, hinner]
    simp only [List.append_assoc]
  · simp only [commentSize, List.length_append]
  · rw [List.append_assoc, marker?, comment?]
    simp only [afterPattern?_append_self, Option.bind_eq_bind, Option.bind_some, hshort,
      Option.pure_def, hcontent]

section
variable {code : List Char} {start stop : Nat} {m : Marker} {lineStart : Bool}

/-- The characters of a marker. -/
theorem MarkerAt.exists_slice_eq (h : MarkerAt code start stop m) :
    ∃ content, slice code start stop = commentStart ++ content ++ commentEnd
      ∧ marker? (slice code start stop) = some (m, (slice code start stop).length) := by
  obtain ⟨content, rest, hcode, hsize, hmarker⟩ := exists_comment_of_marker? h.marker
  have hslice : slice code start stop = commentStart ++ content ++ commentEnd := by
    rw [slice, hcode, hsize, List.take_left]
  exact ⟨content, hslice, by rw [hslice, hmarker, hsize]⟩

/-! ## The line of a marker -/

/-- What indents a position is in front of it. -/
theorem isIndent_of_mem_slice (hstart : start ≤ code.length) :
    ∀ c ∈ slice code (start - indentBefore code start) start, isIndent c := by
  have hlength : (code.take start).length = start := List.length_take_of_le hstart
  have hprefix := List.takeWhile_prefix isIndent (l := (code.take start).reverse)
  -- read backwards, the slice is the run of blanks that was measured
  have hslice : (slice code (start - indentBefore code start) start).reverse
      = (code.take start).reverse.takeWhile isIndent := by
    rw [List.prefix_iff_eq_take.1 hprefix, List.take_reverse, hlength, slice_eq_drop_take]
    rfl
  intro c hc
  rw [← List.mem_reverse, hslice] at hc
  exact List.all_eq_true.1 List.all_takeWhile c hc

theorem restOfLine?_cons_of_isIndent {c : Char} (hc : isIndent c) (s : List Char) :
    restOfLine? (c :: s) = (restOfLine? s).map (· + 1) := by
  rw [restOfLine?, restOfLine?, List.takeWhile_cons_of_pos hc, List.dropWhile_cons_of_pos hc]
  split <;> grind

/-- The rest of a line: blanks, and a line break unless the text ends. -/
theorem exists_line_of_restOfLine? {s : List Char} {size : Nat} (h : restOfLine? s = some size) :
    ∃ blanks ending rest, s = blanks ++ ending ++ rest ∧ size = (blanks ++ ending).length
      ∧ (∀ c ∈ blanks, isIndent c) ∧ (∀ c ∈ ending, isLineEnd c) ∧ (ending = [] → rest = [])
      ∧ restOfLine? (blanks ++ ending) = some size := by
  induction s generalizing size with
  | nil =>
    cases h
    exact ⟨[], [], [], by simp [restOfLine?]⟩
  | cons c s ih =>
    by_cases hc : isIndent c
    · rw [restOfLine?_cons_of_isIndent hc] at h
      obtain ⟨size', hsize, rfl⟩ := Option.map_eq_some_iff.1 h
      obtain ⟨blanks, ending, rest, hs, hlength, hblanks, hending, hrest, hline⟩ := ih hsize
      refine ⟨c :: blanks, ending, rest, by rw [hs]; rfl, by rw [hlength]; rfl,
        List.forall_mem_cons.2 ⟨hc, hblanks⟩, hending, hrest, ?_⟩
      rw [List.cons_append, restOfLine?_cons_of_isIndent hc, hline]
      rfl
    · -- no blank stands here, so that a line break does
      rw [restOfLine?, List.takeWhile_cons_of_neg hc, List.dropWhile_cons_of_neg hc] at h
      split at h
      · rename_i heq
        cases heq
      · rename_i rest heq
        cases heq
        cases h
        exact ⟨[], ['\r', '\n'], rest, by simp [restOfLine?, isIndent, isLineEnd]⟩
      · rename_i d rest _ heq
        cases heq
        split at h
        · rename_i hend
          cases h
          refine ⟨[], [c], s, rfl, rfl, fun _ hd => absurd hd List.not_mem_nil, by simpa using hend,
            by simp, ?_⟩
          simp [restOfLine?, hc, hend]
        · cases h

/-- An extent is the bare marker, or reaches from the indent of its line to the end of it. -/
theorem markerSpan_cases (code : List Char) (start stop : Nat) (lineStart : Bool) :
    markerSpan code start stop lineStart = (start, stop)
      ∨ ∃ size, restOfLine? (code.drop stop) = some size
        ∧ markerSpan code start stop lineStart
          = (start - indentBefore code start, stop + size) := by
  unfold markerSpan
  dsimp only
  split
  · split
    · rename_i size hsize
      exact .inr ⟨size, hsize, rfl⟩
    · exact .inl rfl
  · exact .inl rfl

end

/-! ## Extents do not overlap -/

/-- Whether no blanks in front of the position can belong to a marker behind it. -/
def IsCut (code : List Char) (pos : Nat) : Prop :=
  indentBefore code pos = 0 ∨ code.length ≤ pos

section
variable {code : List Char} {pos start stop start' stop' : Nat} {m m' : Marker}

theorem isCut_zero (code : List Char) : IsCut code 0 := .inl rfl

/-- Behind a character that is no blank nothing is indented. -/
theorem indentBefore_of_take {before : List Char} {c : Char} (h : code.take pos = before ++ [c])
    (hc : isIndent c = false) : indentBefore code pos = 0 := by
  rw [indentBefore, h, List.reverse_append, List.reverse_singleton, List.singleton_append,
    List.takeWhile_cons_of_neg (by simp [hc])]
  rfl

/-- An extent starts no earlier than the cut before it. -/
theorem IsCut.le_markerSpan (hcut : IsCut code pos) (hpos : pos ≤ start)
    (hstart : start < code.length) (stop : Nat) (lineStart : Bool) :
    pos ≤ (markerSpan code start stop lineStart).1 := by
  have hnone : indentBefore code pos = 0 := hcut.resolve_right (by omega)
  have hle : indentBefore code start ≤ start - pos := by
    -- the blanks in front of the start do not reach beyond the position
    rw [indentBefore] at hnone
    rw [indentBefore, ← take_append_slice hpos, List.reverse_append, List.takeWhile_append]
    split
    · rw [List.length_append, hnone, List.length_reverse, Nat.add_zero]
      exact List.length_take_le _ _
    · have hwhile := (List.takeWhile_prefix isIndent
        (l := (slice code pos start).reverse)).length_le
      rw [List.length_reverse] at hwhile
      exact Nat.le_trans hwhile (List.length_take_le _ _)
  rcases markerSpan_cases code start stop lineStart with h | ⟨size, -, h⟩
  · rw [h]
    exact hpos
  · rw [h]
    dsimp only
    omega

/-- An extent ends at a cut. -/
theorem isCut_markerSpan (h : MarkerAt code start stop m) (lineStart : Bool) :
    IsCut code (markerSpan code start stop lineStart).2 := by
  have htake : code.take start ++ slice code start stop = code.take stop :=
    take_append_slice h.start_le
  obtain ⟨content, hslice, -⟩ := h.exists_slice_eq
  have hmarker : code.take stop
      = (code.take start ++ commentStart ++ content ++ ['-', '-']) ++ ['>'] := by
    rw [← htake, hslice]
    simp [commentEnd]
  rcases markerSpan_cases code start stop lineStart with hspan | ⟨size, hsize, hspan⟩
  · rw [hspan]
    exact .inl (indentBefore_of_take hmarker (by decide))
  · obtain ⟨blanks, ending, rest, hdrop, hlength, -, hending, hrest, -⟩ :=
      exists_line_of_restOfLine? hsize
    have htake' : code.take (stop + size) = code.take stop ++ (blanks ++ ending) := by
      rw [List.take_add, hdrop, hlength, List.take_left]
    rw [hspan]
    -- the last character of the line tells
    rcases List.eq_nil_or_concat ending with rfl | ⟨init, c, rfl⟩
    · right
      have hcode := congrArg List.length (List.take_append_drop stop code)
      have hle := h.stop_le
      rw [hdrop, hrest rfl, List.append_nil, List.length_append,
        List.length_take_of_le hle] at hcode
      dsimp only
      omega
    · have hc : isIndent c = false := by
        have hlast := hending c (by simp)
        simp only [isLineEnd, Bool.or_eq_true, beq_iff_eq] at hlast
        rcases hlast with rfl | rfl <;> decide
      rw [List.concat_eq_append, ← List.append_assoc, ← List.append_assoc] at htake'
      exact .inl (indentBefore_of_take htake' hc)

/-- An extent ends before the next marker, for nothing in the rest of a line starts one. -/
theorem markerSpan_le_start (h' : MarkerAt code start' stop' m') (hle : stop ≤ start')
    (lineStart : Bool) : (markerSpan code start stop lineStart).2 ≤ start' := by
  rcases markerSpan_cases code start stop lineStart with hspan | ⟨size, hsize, hspan⟩
  · rw [hspan]
    exact hle
  · obtain ⟨blanks, ending, rest, hdrop, hlength, hblanks, hending, -, -⟩ :=
      exists_line_of_restOfLine? hsize
    rw [hspan]
    dsimp only
    refine Nat.le_of_not_lt fun hlt => ?_
    -- otherwise the first character of the marker is in the rest of the line
    obtain ⟨content, after, hcode, -, -⟩ := exists_comment_of_marker? h'.marker
    have hshift : code.drop start' = (blanks ++ ending).drop (start' - stop) ++ rest := by
      have hplace : start' = stop + (start' - stop) := by omega
      rw [hplace, ← List.drop_drop, hdrop, Nat.add_sub_cancel_left,
        List.drop_append_of_le_length (by omega)]
    have hmem : '<' ∈ blanks ++ ending := by
      refine List.mem_of_mem_drop (i := start' - stop) ?_
      have hne : (blanks ++ ending).drop (start' - stop) ≠ [] := by
        rw [Ne, List.drop_eq_nil_iff]
        omega
      obtain ⟨c, line, hline⟩ := List.exists_cons_of_ne_nil hne
      rw [hshift, hline] at hcode
      simp only [commentStart, List.cons_append] at hcode
      rw [hline, (List.cons.inj hcode).1]
      exact List.mem_cons_self
    rcases List.mem_append.1 hmem with hmem | hmem
    · exact absurd (hblanks _ hmem) (by decide)
    · exact absurd (hending _ hmem) (by decide)

/-- The extents of two markers do not overlap. -/
theorem markerSpan_le_markerSpan (h : MarkerAt code start stop m)
    (h' : MarkerAt code start' stop' m') (hle : stop ≤ start') (lineStart : Bool) :
    (markerSpan code start stop lineStart).2 ≤ (markerSpan code start' stop' lineStart).1 :=
  (isCut_markerSpan h lineStart).le_markerSpan (markerSpan_le_start h' hle lineStart)
    (Nat.lt_of_lt_of_le h'.start_lt h'.stop_le) stop' lineStart

end

/-! ## Extents -/

/-- The extent of a marker: its comment, and the blanks and the line break around it that belong to
    it. -/
structure Extent where
  indent : List Char
  comment : List Char
  ending : List Char

namespace Extent

/-- The characters of an extent. -/
def chars (e : Extent) : List Char := e.indent ++ e.comment ++ e.ending

/-- Whether an extent is that of a marker: the marker itself, and no more around it than what blanks
    leave of a line. -/
structure IsOf (e : Extent) (m : Marker) : Prop where
  indent : ∀ c ∈ e.indent, isIndent c
  comment : marker? e.comment = some (m, e.comment.length)
  ending : restOfLine? e.ending = some e.ending.length

end Extent

/-- The extent of what has been found. -/
def extentAt {α : Type} (code : List Char) (lineStart : Bool) (found : Found α) : Extent :=
  let span := markerSpan code found.start found.stop lineStart
  ⟨slice code span.1 found.start, slice code found.start found.stop,
    slice code found.stop span.2⟩

section
variable {α : Type} {code : List Char} {lineStart : Bool} {found : Found α} {m : Marker}

theorem chars_extentAt (h : MarkerAt code found.start found.stop m) :
    (extentAt code lineStart found).chars
      = slice code (markerSpan code found.start found.stop lineStart).1
          (markerSpan code found.start found.stop lineStart).2 := by
  have hstart := markerSpan_fst_le code found.start found.stop lineStart
  have hstop := le_markerSpan_snd code found.start found.stop lineStart
  rw [extentAt, Extent.chars, slice_append_slice hstart h.start_le,
    slice_append_slice (Nat.le_trans hstart h.start_le) hstop]

/-- The extent of a marker is one. -/
theorem isOf_extentAt (h : MarkerAt code found.start found.stop m) :
    (extentAt code lineStart found).IsOf m := by
  obtain ⟨-, -, hcomment⟩ := h.exists_slice_eq
  have hnil (pos : Nat) : slice code pos pos = [] := by rw [slice, Nat.sub_self, List.take_zero]
  -- the marker stands alone, or has its line for itself
  rcases markerSpan_cases code found.start found.stop lineStart with hspan | ⟨size, hsize, hspan⟩
  · refine ⟨?_, hcomment, ?_⟩
    · rw [extentAt, hspan]
      simp only [hnil]
      exact fun c hc => absurd hc List.not_mem_nil
    · rw [extentAt, hspan]
      simp only [hnil]
      rfl
  · obtain ⟨blanks, ending, rest, hdrop, hlength, -, -, -, hline⟩ :=
      exists_line_of_restOfLine? hsize
    refine ⟨?_, hcomment, ?_⟩
    · rw [extentAt, hspan]
      exact isIndent_of_mem_slice (Nat.le_trans h.start_le h.stop_le)
    · have hslice : slice code found.stop (found.stop + size) = blanks ++ ending := by
        rw [slice, Nat.add_sub_cancel_left, hdrop, hlength, List.take_left]
      rw [extentAt, hspan]
      dsimp only
      rw [hslice, hline, hlength]

end

end BlockTemplate
