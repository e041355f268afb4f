import BlockTemplate.Reference.Basic
import BlockTemplate.Tag
import BlockTemplate.Text.Basic
import BlockTemplate.Text.CaseMap
import BlockTemplate.Text.Words
import BlockTemplate.Value.Numeric

/-!
# Parsing references

`Reference.parse` reads the text between the braces of a tag; it accepts every text. The arguments
of callbacks and the tags embedded in them are shorter than the text that they stand in, so that
parsing ends.
-/

namespace BlockTemplate

/-- The literal that a word denotes, if it is no text: `true`, `false` and `null` in any case, or a
    number. -/
def literalWord? (word : String) : Option Value :=
  let lowered := lowerText word
  if lowered = "true" then some (.bool true)
  else if lowered = "false" then some (.bool false)
  else if lowered = "null" then some .null
  else (parseNumber? word).map .number

/-- What stands between the first and the last character, if the text has both. -/
def inside (s : List Char) : List Char := s.tail.dropLast

/-- Whether a text of at least two characters starts and ends with the given ones. -/
def isEnclosed (first last : Char) (s : List Char) : Bool :=
  2 ≤ s.length && s.head? == some first && s.getLast? == some last

/-- Parsing of what is shorter than `bound`. -/
abbrev ParseShorter (bound : Nat) := (s : List Char) → s.length < bound → Reference

theorem length_lt_of_found_embeddedPieces {text body : List Char}
    (h : Piece.found body ∈ embeddedPieces text) : body.length < text.length := by
  refine forall_found_cutPieces (P := fun body => body.length < text.length) ?_ h
  intro t item after ht hitem
  have := eq_of_embeddedTag? hitem
  simp [this] at ht
  omega

/-- A plain text, cut into its embedded tags and literal chunks. -/
def chunksOf (text : List Char) (parse : ParseShorter text.length) : List Chunk :=
  (embeddedPieces text).attach.map fun
    | ⟨.literal chars, _⟩ => .literal (String.ofList chars)
    | ⟨.found body, h⟩ => .tag (parse body (length_lt_of_found_embeddedPieces h))

theorem length_inside_le (s : List Char) : (inside s).length ≤ s.length := by
  simp [inside]; omega

theorem length_inside_lt {first last : Char} {s : List Char} (h : isEnclosed first last s) :
    (inside s).length < s.length := by
  simp [isEnclosed] at h
  simp [inside]
  omega

/-- The argument that a word denotes: a literal, a tag in braces, or a text, with or without
    quotes. -/
def Argument.ofWord (word : List Char) (parse : ParseShorter word.length) : Argument :=
  match literalWord? (String.ofList word) with
  | some value => .literal value
  | none =>
    if h : isEnclosed '{' '}' word then .reference (parse (inside word) (length_inside_lt h))
    else if isEnclosed '\'' '\'' word || isEnclosed '"' '"' word then
      .text (chunksOf (inside word) fun s hs =>
        parse s (Nat.lt_of_lt_of_le hs (length_inside_le word)))
    else .text (chunksOf word parse)

/-- The name and the text of the arguments in a segment of the form `name(arguments)`. -/
def callForm? (segment : List Char) : Option (List Char × List Char) :=
  let name := segment.takeWhile isWord
  match (segment.dropWhile isWord).dropWhile isBlank with
  | '(' :: rest =>
    if name.isEmpty || rest.getLast? != some ')' then none else some (name, rest.dropLast)
  | _ => none

theorem length_lt_of_callForm? {segment name text : List Char}
    (h : callForm? segment = some (name, text)) : text.length < segment.length := by
  unfold callForm? at h
  dsimp only at h
  split at h
  · rename_i rest heq
    split at h
    · exact nomatch h
    · simp only [Option.some.injEq, Prod.mk.injEq] at h
      obtain ⟨rfl, rfl⟩ := h
      have h₁ := length_dropWhile_le isBlank (segment.dropWhile isWord)
      have h₂ := length_dropWhile_le isWord segment
      rw [heq] at h₁
      simp at h₁ ⊢
      omega
  · exact nomatch h

/-- The words of an argument list. -/
def argumentWords (text : List Char) : List (List Char) :=
  words isArgumentDelimiter .keep (trimBlank text)

theorem length_le_of_mem_argumentWords {text word : List Char} (h : word ∈ argumentWords text) :
    word.length ≤ text.length :=
  Nat.le_trans (length_le_of_mem_words h) (length_trimBoth_le _ _)

/-- The callback that a segment of a chain denotes. A segment that is not of the form
    `name(arguments)` is a bare name as a whole. -/
def Call.ofSegment (segment : List Char) (parse : ParseShorter segment.length) : Call :=
  match h : callForm? segment with
  | none => .mk (.text (String.ofList segment)) none (.text (String.ofList segment))
  | some (name, text) =>
    .mk (.text (String.ofList name))
      (some ((argumentWords text).attach.map fun ⟨word, hw⟩ =>
        .ofWord word fun s hs => parse s (by
          have := length_le_of_mem_argumentWords hw
          have := length_lt_of_callForm? h
          omega)))
      (.text (String.ofList segment))

/-- The segments of the chain of callbacks in a tag. -/
def callSegments (source : List Char) : List (List Char) := (splitChain source).tail.map trimBlank

theorem length_le_of_mem_callSegments {source segment : List Char}
    (h : segment ∈ callSegments source) : segment.length ≤ source.length := by
  obtain ⟨part, hpart, rfl⟩ := List.mem_map.1 h
  have := length_le_of_mem_splitChain (List.mem_of_mem_tail hpart)
  have := length_trimBoth_le isBlank part
  unfold trimBlank
  omega

/-- The name and the keys in a tag. -/
def dottedNames (source : List Char) : List String :=
  (splitAtChar '.' (trimBlank ((splitChain source).head?.getD []))).map String.ofList

/-- The reference that the text between the braces of a tag denotes. -/
def Reference.parse (source : List Char) : Reference :=
  .mk (.text (String.ofList source)) (.text ((dottedNames source).head?.getD ""))
    ((dottedNames source).tail.map .text)
    ((callSegments source).attach.map fun ⟨segment, h⟩ =>
      .ofSegment segment fun s hs =>
        have : s.length < source.length :=
          Nat.lt_of_lt_of_le hs (length_le_of_mem_callSegments h)
        Reference.parse s)
termination_by source.length

/-- The argument that a word denotes. -/
def Argument.parse (word : List Char) : Argument := .ofWord word fun s _ => Reference.parse s

/-- The chunks of a plain text. -/
def embeddedChunks (text : String) : List Chunk :=
  chunksOf text.toList fun s _ => Reference.parse s

end BlockTemplate
