import BlockTemplate.Text.Nesting

/-!
# Words and chains

`words` splits a text at runs of delimiters, `splitChain` at each bar. Neither splits within quotes
or braces, and a chain is not split within parentheses either.
-/

namespace BlockTemplate

/-- Whether a word keeps the quote marks that stand outside braces. -/
inductive QuoteMarks where
  | keep
  | drop
deriving DecidableEq, Repr

/-- The characters that a character adds to its word. -/
def wordPart (marks : QuoteMarks) (n : Nesting) (c : Char) : List Char :=
  match marks with
  | .keep => [c]
  | .drop => if n.isMark c && n.braces == 0 then [] else [c]

/-- The words of `s`. The word read so far is given backwards; there is none between words, and an
    empty one after a quote mark that was dropped. -/
def wordsFrom (isDelimiter : Char → Bool) (marks : QuoteMarks) (n : Nesting)
    (current : Option (List Char)) : List Char → List (List Char)
  | [] => (current.map List.reverse).toList
  | c :: rest =>
    if n.isPlain && !n.isMark c && c != '{' && c != '}' && isDelimiter c then
      (current.map List.reverse).toList ++ wordsFrom isDelimiter marks (n.after c) none rest
    else
      wordsFrom isDelimiter marks (n.after c)
        (some (wordPart marks n c ++ current.getD [])) rest

/-- The words of a text. -/
def words (isDelimiter : Char → Bool) (marks : QuoteMarks) (s : List Char) : List (List Char) :=
  wordsFrom isDelimiter marks .outside none s

/-- Commas, blanks and line breaks separate the arguments of a callback. -/
def isArgumentDelimiter (c : Char) : Bool :=
  c == ',' || c == ' ' || c == '\n' || c == '\r' || c == '\t'

/-- Whether a bar after such a text splits the chain. -/
def Nesting.splitsChain (n : Nesting) : Bool := n.isPlain && n.parens == 0

/-- The parts of a chain, the first of which starts with `current`, given backwards. -/
def splitChainFrom (n : Nesting) (current : List Char) : List Char → List (List Char)
  | [] => [current.reverse]
  | c :: rest =>
    if n.splitsChain && c == '|' then current.reverse :: splitChainFrom n [] rest
    else splitChainFrom (n.after c) (c :: current) rest

/-- The parts of a text between the bars that split it; there is at least one. -/
def splitChain (s : List Char) : List (List Char) := splitChainFrom .outside [] s

/-! ## Words and parts are not longer than the text -/

theorem length_le_of_mem_wordsFrom {isDelimiter : Char → Bool} {marks : QuoteMarks}
    {n : Nesting} {current : Option (List Char)} {s word : List Char}
    (h : word ∈ wordsFrom isDelimiter marks n current s) :
    word.length ≤ (current.getD []).length + s.length := by
  induction s generalizing n current with
  | nil => cases current <;> simp_all [wordsFrom]
  | cons c rest ih =>
    simp only [wordsFrom] at h
    -- the word under way ends here, or it grows by at most this character
    split at h
    · rcases List.mem_append.1 h with hw | hw
      · cases current <;> simp_all
      · have := ih hw
        simp at this
        simp
        omega
    · have := ih h
      have hpart : (wordPart marks n c).length ≤ 1 := by
        cases marks with
        | keep => simp [wordPart]
        | drop => simp only [wordPart]; split <;> simp
      simp at this
      simp
      omega

theorem length_le_of_mem_words {isDelimiter : Char → Bool} {marks : QuoteMarks}
    {s word : List Char} (h : word ∈ words isDelimiter marks s) : word.length ≤ s.length := by
  simpa using length_le_of_mem_wordsFrom h

theorem length_le_of_mem_splitChainFrom {n : Nesting} {current s part : List Char}
    (h : part ∈ splitChainFrom n current s) : part.length ≤ current.length + s.length := by
  induction s generalizing n current with
  | nil => simp_all [splitChainFrom]
  | cons c rest ih =>
    simp only [splitChainFrom] at h
    split at h
    · rcases List.mem_cons.1 h with hp | hp
      · simp_all
      · have := ih hp
        simp at this
        simp
        omega
    · have := ih h
      simp at this
      simp
      omega

theorem length_le_of_mem_splitChain {s part : List Char} (h : part ∈ splitChain s) :
    part.length ≤ s.length := by
  simpa using length_le_of_mem_splitChainFrom h

end BlockTemplate
