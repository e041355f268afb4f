import BlockTemplate.Text.Basic

/-!
# Markers on lines of their own

A marker that is alone on its line, blanks apart, takes the whole line with it, so that structure
leaves no empty lines in the output.
-/

namespace BlockTemplate

/-- Blanks that may stand beside a marker that is alone on its line. -/
def isIndent (c : Char) : Bool := c == ' ' || c == '\t'

/-- Characters that end a line. -/
def isLineEnd (c : Char) : Bool := c == '\r' || c == '\n'

/-- Whether a text begins a line, given the characters before it backwards, and whether their start
    does. -/
def beginsLine (before : List Char) (lineStart : Bool) : Bool :=
  match before with
  | [] => lineStart
  | c :: _ => isLineEnd c

/-- Whether the position begins a line of a text whose start does, or does not, begin one. -/
def positionBeginsLine (code : List Char) (pos : Nat) (lineStart : Bool) : Bool :=
  beginsLine (code.take pos).reverse lineStart

/-- The number of characters in front of the position that indent it. -/
def indentBefore (code : List Char) (pos : Nat) : Nat :=
  ((code.take pos).reverse.takeWhile isIndent).length

/-- The number of characters up to and with the line break, if only blanks stand before it or before
    the end of the text. -/
def restOfLine? (s : List Char) : Option Nat :=
  let blanks := (s.takeWhile isIndent).length
  match s.dropWhile isIndent with
  | [] => some blanks
  | '\r' :: '\n' :: _ => some (blanks + 2)
  | c :: _ => if isLineEnd c then some (blanks + 1) else none

/-- The extent of a marker, its line included if it is alone on it. `lineStart` tells whether the
    text starts at the beginning of a line. -/
def markerSpan (code : List Char) (start stop : Nat) (lineStart : Bool) : Nat × Nat :=
  let left := start - indentBefore code start
  if positionBeginsLine code left lineStart then
    match restOfLine? (code.drop stop) with
    | some size => (left, stop + size)
    | none => (start, stop)
  else (start, stop)

theorem markerSpan_fst_le (code : List Char) (start stop : Nat) (lineStart : Bool) :
    (markerSpan code start stop lineStart).1 ≤ start := by
  unfold markerSpan
  dsimp only
  split
  · split <;> simp
  · simp

theorem le_markerSpan_snd (code : List Char) (start stop : Nat) (lineStart : Bool) :
    stop ≤ (markerSpan code start stop lineStart).2 := by
  unfold markerSpan
  dsimp only
  split
  · split <;> simp
  · simp

/-- The characters from one position up to another. -/
def slice (code : List Char) (start stop : Nat) : List Char :=
  (code.drop start).take (stop - start)

/-- What starts behind the first character of a text is shorter than the text. -/
theorem length_slice_lt {code : List Char} {start : Nat} (stop : Nat) (hstart : 0 < start)
    (hcode : 0 < code.length) : (slice code start stop).length < code.length := by
  simp [slice]
  omega

end BlockTemplate
