import BlockTemplate.Text.Basic
import BlockTemplate.Text.Pieces
import BlockTemplate.Text.Word

/-!
# Cleaning up HTML

Blanks that do not matter in HTML are removed or collapsed before a template is compiled, if the
host asks for it.
-/

namespace BlockTemplate

/-- Characters that are trimmed from lines and from the texts of root blocks. -/
def isMargin (c : Char) : Bool :=
  c == ' ' || c == '\t' || c == '\n' || c == '\r' || c == '\x00' || c == '\x0b'

/-- Trim each line. -/
def trimLines (s : List Char) : List Char :=
  joinWith ['\n'] ((splitAtChar '\n' s).map (trimBoth isMargin))

/-- Line breaks and tabs. -/
def isBreak (c : Char) : Bool := c == '\r' || c == '\n' || c == '\t'

/-- Put one blank in place of the breaks right before an opening angle bracket. -/
def collapseBeforeTag : List Char → List Char
  | [] => []
  | c :: rest =>
    -- of a run of breaks that ends at a bracket, the last one leaves a blank
    if isBreak c && (rest.dropWhile isBreak).head? == some '<' then
      if rest.head? == some '<' then ' ' :: collapseBeforeTag rest else collapseBeforeTag rest
    else c :: collapseBeforeTag rest

/-- Remove the breaks right after a closing angle bracket; `after` tells whether there is one before
    the text. -/
def dropAfterTag (after : Bool) : List Char → List Char
  | [] => []
  | c :: rest =>
    if after && isBreak c then dropAfterTag true rest else c :: dropAfterTag (c == '>') rest

/-- Put one blank in place of each run of characters with property `p`; `inRun` tells whether a run
    is open before the text. -/
def collapseRuns (p : Char → Bool) (inRun : Bool) : List Char → List Char
  | [] => []
  | c :: rest =>
    if p c then
      if inRun then collapseRuns p true rest else ' ' :: collapseRuns p true rest
    else c :: collapseRuns p false rest

/-- What can follow each quote that closes an attribute value, on the same line. -/
def afterQuotes (quote : Char) : List Char → List (List Char)
  | [] => []
  | c :: rest =>
    if c = quote then rest :: afterQuotes quote rest
    else if c = '\n' then []
    else afterQuotes quote rest

theorem length_lt_of_mem_afterQuotes {quote : Char} {s rest : List Char}
    (h : rest ∈ afterQuotes quote s) : rest.length < s.length := by
  induction s with
  | nil => simp [afterQuotes] at h
  | cons c s ih =>
    simp only [afterQuotes] at h
    split at h
    · rcases List.mem_cons.1 h with rfl | h
      · simp
      · have := ih h
        simp
        omega
    · split at h
      · simp at h
      · have := ih h
        simp
        omega

/-- A character of an attribute name. -/
def isAttributeName (c : Char) : Bool := isWord c || c == '-'

/-- A character of an attribute value without quotes. -/
def isBareValue (c : Char) : Bool := c != '\'' && c != '"' && c != '>' && !isBlank c

/-- What may follow an attribute name and its value: nothing but the name, or each way in which a
    value can end. -/
def afterAttribute (s : List Char) : List (List Char) :=
  match s.dropWhile isBlank with
  | '=' :: afterSign =>
    match afterSign.dropWhile isBlank with
    | '"' :: rest => afterQuotes '"' rest
    | '\'' :: rest => afterQuotes '\'' rest
    | rest => if (rest.takeWhile isBareValue).isEmpty then [] else [rest.dropWhile isBareValue]
  | _ => [s]

/-- What may follow a whole attribute at the start of a text, its name included. -/
def afterNamedAttribute (s : List Char) : List (List Char) :=
  let name := s.takeWhile isAttributeName
  if (name.head?.map isWord).getD false && (name.getLast?.map isWord).getD false then
    afterAttribute (s.dropWhile isAttributeName)
  else []

theorem length_le_of_mem_afterAttribute {s rest : List Char} (h : rest ∈ afterAttribute s) :
    rest.length ≤ s.length := by
  unfold afterAttribute at h
  have hs := length_dropWhile_le isBlank s
  split at h
  · rename_i afterSign heq
    rw [heq] at hs
    have ha := length_dropWhile_le isBlank afterSign
    -- a value in double quotes, in single quotes, or bare; without a sign nothing is read
    split at h
    · rename_i inner heq
      have := length_lt_of_mem_afterQuotes h
      rw [heq] at ha
      simp at ha hs
      omega
    · rename_i inner heq
      have := length_lt_of_mem_afterQuotes h
      rw [heq] at ha
      simp at ha hs
      omega
    · split at h
      · simp at h
      · simp only [List.mem_singleton] at h
        have := length_dropWhile_le isBareValue (afterSign.dropWhile isBlank)
        simp at hs
        rw [h]
        omega
  · simp at h
    simp [h]

theorem length_lt_of_mem_afterNamedAttribute {s rest : List Char}
    (h : rest ∈ afterNamedAttribute s) : rest.length < s.length := by
  unfold afterNamedAttribute at h
  dsimp only at h
  split at h
  · rename_i hname
    have hrest := length_le_of_mem_afterAttribute h
    have hsplit := congrArg List.length
      (List.takeWhile_append_dropWhile (p := isAttributeName) (l := s))
    -- the name is not empty
    have hpos : 0 < (s.takeWhile isAttributeName).length := by
      cases hn : s.takeWhile isAttributeName with
      | nil => simp [hn] at hname
      | cons => simp
    simp only [List.length_append] at hsplit
    omega
  · simp at h

/-- What follows an HTML tag, in the text after its name. -/
def afterTagName? (s : List Char) : Option (List Char) :=
  match s.dropWhile isBlank with
  | '>' :: rest => some rest
  | '/' :: '>' :: rest => some rest
  | _ =>
    if (s.head?.map isBlank).getD false then
      -- one more attribute: a value may end at any of the quotes behind it, the nearest tried first
      (afterNamedAttribute (s.dropWhile isBlank)).attach.findSome? fun ⟨rest, h⟩ =>
        have : rest.length < s.length :=
          Nat.lt_of_lt_of_le (length_lt_of_mem_afterNamedAttribute h)
            (length_dropWhile_le isBlank s)
        afterTagName? rest
    else none
termination_by s.length

/-- The HTML tag at the start of a text, and what follows it. -/
def htmlTag? : List Char → Option (List Char × List Char)
  | '<' :: s =>
    let named := match s with
      | '/' :: rest => rest
      | rest => rest
    if (named.takeWhile isWord).isEmpty then none
    else (afterTagName? (named.dropWhile isWord)).map fun after =>
      (('<' :: s).take (s.length + 1 - after.length), after)
  | _ => none

/-- Remove and collapse blanks that do not matter in HTML. -/
def cleanupHtml (s : List Char) : List Char :=
  let flat := dropAfterTag false (collapseBeforeTag (trimLines s))
  let spaced := collapseRuns (fun c => c == '\t' || c == '\x0c') false flat
  replaceFound htmlTag? (collapseRuns isBlank false) (collapseRuns (· == ' ') false spaced)

end BlockTemplate
