import BlockTemplate.Markup.Line
import BlockTemplate.Proofs.Markup.Marker

/-!
# Texts in lines

A text in which every marker stands alone on its line is a list of markers and of the texts between
them. On such a list a search for markers is a search for items, and the lines that belong to the
inside of a construct are passed over as a whole.

## Key results

- `findAll_linesChars`: what is found in the text of lines are the markers among the lines
- `markerSpan_of_line`: the extent of a marker on a line of its own is the line
-/

namespace BlockTemplate

/-- A text that ends with a line break, or a marker with a line of its own. -/
inductive Line where
  | text (chars : List Char)
  | marker (m : Marker)

/-- Literal text between markers: whole lines without comments, at least one. -/
structure IsLiteral (s : List Char) : Prop where
  ends_line : ∃ t, s = t ++ ['\n']
  no_start : occursIn commentStart s = false

namespace Line

/-- The characters of a line, its line break included. -/
def chars : Line → List Char
  | text s => s
  | marker m => m.chars ++ ['\n']

/-- Whether the line is what it says. -/
def IsProper : Line → Prop
  | text s => IsLiteral s
  | marker m => m.IsProper

end Line

/-- The text of some lines. -/
def linesChars (lines : List Line) : List Char := lines.flatMap Line.chars

@[simp] theorem linesChars_nil : linesChars [] = [] := rfl

@[simp] theorem linesChars_cons (line : Line) (lines : List Line) :
    linesChars (line :: lines) = line.chars ++ linesChars lines := rfl

@[simp] theorem linesChars_append (lines more : List Line) :
    linesChars (lines ++ more) = linesChars lines ++ linesChars more := by
  simp [linesChars]

/-- No comment starts in literal text, or between it and what follows it. -/
theorem IsLiteral.quiet {s : List Char} (h : IsLiteral s) : Quiet s := by
  obtain ⟨t, rfl⟩ := h.ends_line
  exact quiet_snoc (occursIn_of_append (by decide) _ h.no_start) (by decide)

/-! ## Searching lines -/

variable {α : Type}

/-- The markers among some lines that a function makes something of, with their positions. -/
def foundIn (f : Marker → Option α) (pos : Nat) : List Line → List (Found α)
  | [] => []
  | .text s :: rest => foundIn f (pos + s.length) rest
  | .marker m :: rest =>
    let after := foundIn f (pos + m.chars.length + 1) rest
    match f m with
    | some item => ⟨pos, pos + m.chars.length, item⟩ :: after
    | none => after

theorem quiet_newline : Quiet ['\n'] := quiet_of_not_mem (by decide)

/-- A marker starts with an angle bracket, and may be passed over without it. -/
theorem Marker.chars_eq_cons (m : Marker) : m.chars = '<' :: m.chars.tail := rfl

theorem findAll_marker {m : Marker} (hm : m.IsProper) (f : Marker → Option α) (pos : Nat)
    (rest : List Char) :
    findAll (markerAs f) 0 pos (m.chars ++ rest)
      = match f m with
        | some item => ⟨pos, pos + m.chars.length, item⟩
            :: findAll (markerAs f) 0 (pos + m.chars.length) rest
        | none => findAll (markerAs f) 0 (pos + m.chars.length) rest := by
  have hrecognize := markerAs_chars hm f rest
  have hsize : pos + 1 + m.chars.tail.length = pos + m.chars.length := by
    rw [m.chars_eq_cons, List.length_cons, List.tail_cons]
    omega
  rw [m.chars_eq_cons, List.cons_append] at hrecognize ⊢
  rw [findAll, hrecognize]
  cases f m with
  | some item =>
    -- the rest of a find is passed over
    have hskip := findAll_append_of_skipped (markerAs f) m.chars.tail (pos + 1) rest
    rw [hsize] at hskip
    simpa [← m.chars_eq_cons] using hskip
  | none =>
    -- the rest of a marker that means nothing is searched, and nothing starts in it
    have hquiet := findAll_append_of_quiet (needsComment_markerAs f) hm.quiet_tail (pos + 1) rest
    rw [hsize] at hquiet
    simpa [← m.chars_eq_cons] using hquiet

/-- What is found in the text of lines are the markers among them. -/
theorem findAll_linesChars {lines : List Line} (h : ∀ line ∈ lines, line.IsProper)
    (f : Marker → Option α) (pos : Nat) :
    findAll (markerAs f) 0 pos (linesChars lines) = foundIn f pos lines := by
  induction lines generalizing pos with
  | nil => rfl
  | cons line rest ih =>
    have hline := h line List.mem_cons_self
    have hrest := ih fun l hl => h l (List.mem_cons_of_mem _ hl)
    cases line with
    | text s =>
      rw [linesChars_cons, Line.chars, findAll_append_of_quiet (needsComment_markerAs f)
        (IsLiteral.quiet hline), hrest, foundIn]
    | marker m =>
      -- the line break belongs to the line, and nothing starts there
      have hnewline := findAll_append_of_quiet (needsComment_markerAs f) quiet_newline
        (pos + m.chars.length) (linesChars rest)
      rw [List.length_singleton, hrest] at hnewline
      rw [linesChars_cons, Line.chars, List.append_assoc, findAll_marker hline, hnewline, foundIn]

/-! ## Passing over lines -/

/-- The number of characters of some lines. -/
def linesWidth (lines : List Line) : Nat := (linesChars lines).length

/-- Whether a scan of what is found passes over the lines, in whatever state it reaches them. -/
def Neutral {σ ρ : Type} (scan : σ → List (Found α) → ρ) (f : Marker → Option α)
    (lines : List Line) : Prop :=
  ∀ state pos rest,
    scan state (foundIn f pos (lines ++ rest))
      = scan state (foundIn f (pos + linesWidth lines) rest)

namespace Neutral

variable {σ ρ : Type} {scan : σ → List (Found α) → ρ} {f : Marker → Option α}
  {lines more : List Line}

theorem nil : Neutral scan f [] := fun _ _ _ => rfl

theorem append (h : Neutral scan f lines) (hmore : Neutral scan f more) :
    Neutral scan f (lines ++ more) := by
  intro state pos rest
  rw [List.append_assoc, h, hmore, linesWidth, linesWidth, linesWidth, linesChars_append,
    List.length_append, Nat.add_assoc]

theorem text (s : List Char) : Neutral scan f [.text s] := by
  intro state pos rest
  simp [foundIn, linesWidth, Line.chars]

theorem marker {m : Marker} (hm : f m = none) : Neutral scan f [.marker m] := by
  intro state pos rest
  simp [foundIn, linesWidth, Line.chars, hm, Nat.add_assoc]

/-- Lines between two markers that mean nothing to the scan. -/
theorem enclose {m m' : Marker} (hm : f m = none) (hm' : f m' = none) (h : Neutral scan f lines) :
    Neutral scan f (.marker m :: lines ++ [.marker m']) :=
  ((marker hm).append h).append (marker hm')

end Neutral

/-! ## Markers on lines of their own -/

/-- Whether a text ends where a line begins, its own start being the beginning of one or not. -/
def EndsAtLine (before : List Char) (lineStart : Bool) : Prop :=
  beginsLine before.reverse lineStart = true

theorem EndsAtLine.takeWhile_isIndent {before : List Char} {lineStart : Bool}
    (h : EndsAtLine before lineStart) : before.reverse.takeWhile isIndent = [] := by
  unfold EndsAtLine beginsLine at h
  cases hrev : before.reverse with
  | nil => rfl
  | cons c rest =>
    rw [hrev] at h
    -- the character before the position ends a line, so it does not indent one
    have hc : isIndent c = false := by
      simp only [isLineEnd, Bool.or_eq_true, beq_iff_eq] at h
      rcases h with rfl | rfl <;> decide
    simp [hc]

theorem endsAtLine_of_newline (before : List Char) (lineStart : Bool) :
    EndsAtLine (before ++ ['\n']) lineStart := by
  simp [EndsAtLine, beginsLine, isLineEnd]

theorem Line.IsProper.ends_line {line : Line} (h : line.IsProper) :
    ∃ t, line.chars = t ++ ['\n'] := by
  cases line with
  | text s => exact IsLiteral.ends_line h
  | marker m => exact ⟨m.chars, rfl⟩

/-- Where lines end, a line begins. -/
theorem EndsAtLine.append_lines {before : List Char} {lineStart : Bool}
    (h : EndsAtLine before lineStart) {lines : List Line}
    (hlines : ∀ line ∈ lines, line.IsProper) :
    EndsAtLine (before ++ linesChars lines) lineStart := by
  -- only the last line matters
  rcases List.eq_nil_or_concat lines with rfl | ⟨init, line, rfl⟩
  · rwa [linesChars_nil, List.append_nil]
  · obtain ⟨t, ht⟩ := (hlines line (by simp)).ends_line
    have hchars : before ++ linesChars (init ++ [line])
        = before ++ linesChars init ++ t ++ ['\n'] := by
      simp [ht]
    rw [List.concat_eq_append, hchars]
    exact endsAtLine_of_newline _ _

theorem positionBeginsLine_append (before after : List Char) (lineStart : Bool) :
    positionBeginsLine (before ++ after) before.length lineStart
      = beginsLine before.reverse lineStart := by
  simp [positionBeginsLine]

/-- A marker between a line start and a line break takes the line break with it, and no more. -/
theorem markerSpan_of_line {before : List Char} {lineStart : Bool} (h : EndsAtLine before lineStart)
    (marker after : List Char) :
    markerSpan (before ++ (marker ++ '\n' :: after)) before.length
        (before.length + marker.length) lineStart
      = (before.length, before.length + marker.length + 1) := by
  -- there is nothing to take in front of the marker, and one line break behind it
  have hindent : indentBefore (before ++ (marker ++ '\n' :: after)) before.length = 0 := by
    rw [indentBefore, List.take_left, h.takeWhile_isIndent]
    rfl
  have hdrop : (before ++ (marker ++ '\n' :: after)).drop (before.length + marker.length)
      = '\n' :: after := by
    rw [← List.append_assoc, ← List.length_append, List.drop_left]
  have hline : restOfLine? ('\n' :: after) = some 1 := by
    simp [restOfLine?, isIndent, isLineEnd]
  have hbegins : positionBeginsLine (before ++ (marker ++ '\n' :: after)) before.length lineStart
      = true := by
    rw [positionBeginsLine_append]
    exact h
  simp only [markerSpan, hindent, Nat.sub_zero, hbegins, if_true, hdrop, hline]

/-- The characters between two positions of a text. -/
theorem slice_append (before middle after : List Char) :
    slice (before ++ (middle ++ after)) before.length (before.length + middle.length) = middle := by
  rw [slice, List.drop_left, Nat.add_sub_cancel_left, List.take_left]

end BlockTemplate
