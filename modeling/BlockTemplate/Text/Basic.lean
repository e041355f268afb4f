import BlockTemplate.Text.Blank

/-!
# Texts as lists of characters

Scanners work on lists of characters. Here are the few operations that they share: trimming,
splitting at a character, and replacing a pattern.
-/

namespace BlockTemplate

/-- Drop the longest run of elements with property `p` from the end. -/
def trimEnd {α : Type} (p : α → Bool) (s : List α) : List α := (s.reverse.dropWhile p).reverse

/-- Drop the longest runs of elements with property `p` from both ends. -/
def trimBoth {α : Type} (p : α → Bool) (s : List α) : List α := trimEnd p (s.dropWhile p)

/-- Drop blank characters from both ends. -/
def trimBlank (s : List Char) : List Char := trimBoth isBlank s

/-- The pieces between the occurrences of a character; there is one more piece than occurrences. -/
def splitAtChar (c : Char) : List Char → List (List Char)
  | [] => [[]]
  | x :: rest =>
    if x = c then [] :: splitAtChar c rest
    else match splitAtChar c rest with
      | [] => [[x]]
      | piece :: pieces => (x :: piece) :: pieces

/-- What follows `pattern` in a text that starts with it. -/
def afterPattern? : List Char → List Char → Option (List Char)
  | [], s => some s
  | _ :: _, [] => none
  | p :: pattern, c :: s => if p = c then afterPattern? pattern s else none

/-- Whether the text starts with the pattern. -/
def startsWith (pattern s : List Char) : Bool := (afterPattern? pattern s).isSome

/-- Whether `pattern` occurs somewhere in the text. -/
def occursIn (pattern : List Char) : List Char → Bool
  | [] => pattern.isEmpty
  | c :: s => startsWith pattern (c :: s) || occursIn pattern s

/-- Replace every occurrence of a pattern, from the left and without overlap; the first `skipped`
    characters belong to an occurrence that has been replaced already. -/
def replaceFrom (pattern replacement : List Char) : (skipped : Nat) → List Char → List Char
  | _, [] => []
  | skipped + 1, _ :: rest => replaceFrom pattern replacement skipped rest
  | 0, c :: rest =>
    if startsWith pattern (c :: rest) then
      replacement ++ replaceFrom pattern replacement (pattern.length - 1) rest
    else c :: replaceFrom pattern replacement 0 rest

/-- Replace every occurrence of a nonempty pattern, from the left and without overlap. -/
def replaceAll (pattern replacement s : List Char) : List Char :=
  replaceFrom pattern replacement 0 s

/-- The texts one after the other, with `glue` between neighbours. -/
def joinWith (glue : List Char) : List (List Char) → List Char
  | [] => []
  | [s] => s
  | s :: rest => s ++ glue ++ joinWith glue rest

/-- Whether the text ends with the pattern. -/
def endsWith (pattern s : List Char) : Bool := startsWith pattern.reverse s.reverse

/-! ## Trimming makes nothing longer -/

theorem length_dropWhile_le {α : Type} (p : α → Bool) (s : List α) :
    (s.dropWhile p).length ≤ s.length :=
  (List.dropWhile_suffix p).length_le

theorem length_trimEnd_le {α : Type} (p : α → Bool) (s : List α) :
    (trimEnd p s).length ≤ s.length := by
  simpa [trimEnd] using length_dropWhile_le p s.reverse

theorem length_trimBoth_le {α : Type} (p : α → Bool) (s : List α) :
    (trimBoth p s).length ≤ s.length :=
  Nat.le_trans (length_trimEnd_le p _) (length_dropWhile_le p s)

end BlockTemplate
