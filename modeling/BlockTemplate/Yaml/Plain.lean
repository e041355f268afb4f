import BlockTemplate.Yaml.Cursor

/-!
# Plain scalars in YAML

A plain scalar is a row of words. It may go on over several lines, as long as they are indented
deeply enough; the breaks between its lines are folded as in a quoted scalar.
-/

namespace BlockTemplate.Yaml

/-- Marks that cannot start a plain scalar. -/
def marks : List Char :=
  ['-', '?', ':', ',', '[', ']', '{', '}', '#', '&', '*', '!', '|', '>', '\'', '"', '%', '@',
   Char.ofNat 0x60]

/-- Whether a plain scalar starts here. A dash, and a colon or a question mark, can start one if a
    word follows directly. -/
def startsPlain (inFlow : Bool) : List Char → Bool
  | [] => false
  | c :: rest =>
    if !marks.contains c then !isSpace c && !isBreak c
    else if c == '-' then !isWordEnd rest
    else if c == ':' then if inFlow then (rest.head?.map fun d => !isSpace d).getD true
      else !isWordEnd rest
    else c == '?' && !inFlow && !isWordEnd rest

/-- Whether a word ends before a character that `rest` follows. A colon ends it only in front of the
    end of a word. -/
def endsWord (inFlow : Bool) (c : Char) (rest : List Char) : Bool :=
  if c == ':' then isWordEnd rest
  else isSpace c || isBreak c
    || inFlow && (c == ',' || c == '[' || c == ']' || c == '{' || c == '}')

/-- The word at the start of a text, and the rest. -/
def takeWord (inFlow : Bool) : List Char → List Char × List Char
  | [] => ([], [])
  | c :: rest =>
    if endsWord inFlow c rest then ([], c :: rest)
    else
      let (word, after) := takeWord inFlow rest
      (c :: word, after)

/-- The breaks in a row with blanks between them, and the rest; whether a document ends in
    between. -/
def breaksBefore : List Char → List Char × List Char × Bool
  | [] => ([], [], false)
  | c :: rest =>
    if c == ' ' then breaksBefore rest
    else if !isBreak c then ([], c :: rest, false)
    else if isSeparator rest then ([c], rest, true)
    else
      let (breaks, after, ends) := breaksBefore rest
      (c :: breaks, after, ends)

/-- What stands between two words. -/
structure Gap where
  /-- what it stands for in the text -/
  chars : List Char
  /-- whether there is a line break in it -/
  isBroken : Bool
  /-- whether the scalar can go on behind it -/
  isOpen : Bool
  after : List Char

/-- The gap at the start of a text. -/
def takeGap (s : List Char) : Gap :=
  let blanks := s.takeWhile (· == ' ')
  match s.dropWhile (· == ' ') with
  | [] => ⟨blanks, false, !blanks.isEmpty, []⟩
  | c :: rest =>
    if isBreak c then
      let (breaks, after, ends) := breaksBefore (c :: rest)
      ⟨foldedBreaks breaks, true, !ends, after⟩
    else ⟨blanks, false, !blanks.isEmpty, c :: rest⟩

/-- A plain scalar that has been read: its text, the place behind it and the blanks there, and
    whether it ends with a line. -/
structure PlainText where
  chars : List Char
  after : Cursor
  endsLine : Bool

/-- The plain scalar at a place, whose lines must be indented to a column. Every call reads a
    character, so that the length of the text is fuel enough. -/
def takePlain (inFlow : Bool) (indent : Nat) : (fuel : Nat) → Cursor → PlainText
  | 0, c => ⟨[], c, false⟩
  | fuel + 1, c =>
    let (word, afterWord) := takeWord inFlow c.rest
    let gap := takeGap afterWord
    let after := c.moveTo gap.after
    let ends := !gap.isOpen || gap.after.head? == some '#' || !inFlow && after.column < indent
      || (takeWord inFlow gap.after).1.isEmpty
    if ends then ⟨word, after, gap.isBroken⟩
    else
      let more := takePlain inFlow indent fuel after
      { more with chars := word ++ gap.chars ++ more.chars }

end BlockTemplate.Yaml
