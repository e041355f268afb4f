import BlockTemplate.Text.Basic

/-!
# Text in HTML

Escaping of the characters that HTML reserves, and line breaks as elements.
-/

namespace BlockTemplate

/-- The characters that HTML reserves with their entities, in the order in which they are replaced.
    The ampersand goes first, for every entity starts with one. -/
def htmlEntities : List (Char × List Char) :=
  [('&', ['&', 'a', 'm', 'p', ';']),
   ('"', ['&', 'q', 'u', 'o', 't', ';']),
   ('\'', ['&', '#', '0', '3', '9', ';']),
   ('<', ['&', 'l', 't', ';']),
   ('>', ['&', 'g', 't', ';'])]

/-- The text with each kind of reserved characters replaced by its entity, one kind after the
    other. -/
def escapeHtmlChars (s : List Char) : List Char :=
  htmlEntities.foldl (fun s (c, entity) => replaceAll [c] entity s) s

/-- The text with reserved characters as entities. -/
def escapeHtml (s : String) : String := String.ofList (escapeHtmlChars s.toList)

/-- The element that breaks a line. -/
def lineBreak : List Char := ['<', 'b', 'r', ' ', '/', '>']

/-- Put a line break element in front of each line break; a carriage return and a line feed beside
    each other, in any order, are one break. -/
def breakLineChars : List Char → List Char
  | [] => []
  | '\r' :: '\n' :: rest => lineBreak ++ '\r' :: '\n' :: breakLineChars rest
  | '\n' :: '\r' :: rest => lineBreak ++ '\n' :: '\r' :: breakLineChars rest
  | c :: rest =>
    if c = '\n' ∨ c = '\r' then lineBreak ++ c :: breakLineChars rest
    else c :: breakLineChars rest

/-- The text with line break elements. -/
def breakLines (s : String) : String := String.ofList (breakLineChars s.toList)

end BlockTemplate
