import BlockTemplate.Text.Basic

/-!
# Places in a YAML text

A cursor is a place in a text with its line and column, by which keys and the depth of blocks are
told. Line breaks are of several kinds, but only a line feed starts a new line.
-/

namespace BlockTemplate.Yaml

/-- Blanks within a line. -/
def isSpace (c : Char) : Bool := c == ' ' || c == '\t'

/-- Line breaks: a line feed, the next-line character, and the separators of lines and
    paragraphs. -/
def isBreak (c : Char) : Bool := c == '\n' || c == '\x85' || c == '\u2028' || c == '\u2029'

/-- What a line break stands for in a text. The separators stand for themselves. -/
def breakChar (c : Char) : Char := if c == '\u2028' || c == '\u2029' then c else '\n'

/-- What a row of breaks between two words stands for: a single break is a blank, and of several the
    first one is dropped. The separators of lines and paragraphs are always kept. -/
def foldedBreaks : List Char → List Char
  | [] => []
  | first :: more =>
    if breakChar first != '\n' then first :: more.map breakChar
    else if more.isEmpty then [' ']
    else more.map breakChar

/-- Whether a word cannot go on behind a place: there is a blank, a break or the end. -/
def isWordEnd : List Char → Bool
  | [] => true
  | c :: _ => isSpace c || isBreak c

/-- Whether a text starts with a mark that separates documents. -/
def isSeparator (s : List Char) : Bool :=
  match s with
  | '-' :: '-' :: '-' :: rest | '.' :: '.' :: '.' :: rest => isWordEnd rest
  | _ => false

/-- A place in a text: what follows it, the number of characters and of lines before it, and its
    column. -/
structure Cursor where
  rest : List Char
  index : Nat
  line : Nat
  column : Nat
deriving DecidableEq, Repr

namespace Cursor

/-- The start of a text. -/
def start (s : List Char) : Cursor := ⟨s, 0, 0, 0⟩

/-- The place behind the next character. A byte order mark has no width. -/
def next (c : Cursor) : Cursor :=
  match c.rest with
  | [] => c
  | x :: rest =>
    if x == '\n' then ⟨rest, c.index + 1, c.line + 1, 0⟩
    else if x == '\uFEFF' then ⟨rest, c.index + 1, c.line, c.column⟩
    else ⟨rest, c.index + 1, c.line, c.column + 1⟩

/-- The place behind the next `n` characters. -/
def skip : Nat → Cursor → Cursor
  | 0, c => c
  | n + 1, c => skip n c.next

/-- The place where `rest`, an end of the text, is what follows. -/
def moveTo (c : Cursor) (rest : List Char) : Cursor := c.skip (c.rest.length - rest.length)

end Cursor

end BlockTemplate.Yaml
