import BlockTemplate.Callback.Basic
import BlockTemplate.Text.Basic
import BlockTemplate.Text.CaseMap
import BlockTemplate.Text.Html
import BlockTemplate.Value.Json

/-!
# Default callbacks

The callbacks that every registry starts with: escaping, case, trimming, counting, joining and JSON.
-/

namespace BlockTemplate

namespace Callback

/-- A callback of one argument. -/
def ofFunction (f : Value → Value) : Callback
  | [v] => .ok (f v)
  | _ => .error .wrongArguments

/-- A callback of one argument that works on its text. -/
def onText (f : String → String) : Callback := ofFunction fun v => .text (f v.toText)

/-- Blanks, tabs, line breaks, NUL and the vertical tab are trimmed unless told otherwise. -/
def trimmedByDefault (c : Char) : Bool :=
  c == ' ' || c == '\t' || c == '\n' || c == '\r' || c == '\x00' || c == '\x0b'

def trimmed (p : Char → Bool) (v : Value) : Value :=
  .text (String.ofList (trimBoth p v.toText.toList))

/-- Trim a text, of the characters in the second argument if there is one; null there stands for
    blanks of any kind. -/
def trim : Callback
  | [v] => .ok (trimmed trimmedByDefault v)
  | [v, .text characters] => .ok (trimmed characters.toList.contains v)
  | [v, .null] => .ok (trimmed isBlank v)
  | _ => .error .wrongArguments

/-- The size of an array; null counts as nothing and all else as one. -/
def count (v : Value) : Nat :=
  match v with
  | .null => 0
  | v => match v.elements? with
    | some items => items.length
    | none => 1

/-- The texts of the elements of an array with glue between them. What is no array is a single
    piece. -/
def joined (glue : Value) (pieces : Value) : Value :=
  match pieces.elements? with
  | some items =>
    .text (String.ofList (joinWith glue.toText.toList (items.map fun v => v.toText.toList)))
  | none => .text pieces.toText

/-- Join the elements of an array. The glue may come first or second, or be left out. -/
def implode : Callback
  | [pieces] => .ok (joined (.text "") pieces)
  | [pieces, .null] => .ok (joined (.text "") pieces)
  | [glue, pieces] =>
    .ok (if glue.isArray && !pieces.isArray then joined pieces glue else joined glue pieces)
  | _ => .error .wrongArguments

end Callback

open Callback in
/-- The callbacks that a registry starts with. -/
def defaultCallbacks : List (String × Callback) :=
  [("htmlspecialchars", onText escapeHtml),
   ("strtoupper", onText upperText),
   ("strtolower", onText lowerText),
   ("ucfirst", onText capitalizeFirst),
   ("trim", trim),
   ("count", ofFunction fun v => .int (count v)),
   ("implode", implode),
   ("json_encode", ofFunction fun v => .text v.toJson.spacedText),
   ("nl2br", onText breakLines)]

/-- A registry of the default callbacks. -/
def Registry.default : Registry := ⟨defaultCallbacks⟩

end BlockTemplate
