import BlockTemplate.Text.Html
import BlockTemplate.Text.Order
import BlockTemplate.Value.Json
import BlockTemplate.Value.Numeric

/-!
# Listings of variables

The debug report and the `dump` callback show variables as list items.
-/

namespace BlockTemplate

namespace Value

/-- A value in a list item: numbers and numeric texts as they are, an object by its class and
    attributes, anything else as escaped text between quotes. -/
def inListing : Value → String
  | .number n => n.shown
  | .object identity className attributes items =>
    className ++ " " ++ (Value.object identity className attributes items).toJson.spacedText
  | .text s =>
    if (parseNumber? s).isSome then s else "&quot;" ++ escapeHtml s ++ "&quot;"
  | v => "&quot;" ++ escapeHtml v.toText ++ "&quot;"

/-- The list item of a variable. -/
def listItem (name : String) (v : Value) : String :=
  "<li>\x7b" ++ escapeHtml name ++ "\x7d =&gt; <em>" ++ v.inListing ++ "</em></li>"

/-- Containers below this level are not listed. -/
def deepestDump : Nat := 5

mutual

/-- The list items of the texts in a value at a level, each named by its path. The elements of an
    array are in the order of their keys. -/
def dumpItems (level : Nat) (path : String) : Value → List String
  | .text s => if deepestDump < level then [] else [listItem path (.text s)]
  | .sequence _ items =>
    if deepestDump < level then []
    else (sortedBy (·.1) (dumpPositions level path 0 items)).flatMap (·.2)
  | .mapping _ entries =>
    if deepestDump < level then []
    else (sortedBy (·.1) (dumpEntries level path entries)).flatMap (·.2)
  | _ => []

def dumpPositions (level : Nat) (path : String) (start : Nat) :
    List Value → List (String × List String)
  | [] => []
  | v :: rest =>
    (intText start, dumpItems (level + 1) (path ++ "." ++ intText start) v)
      :: dumpPositions level path (start + 1) rest

def dumpEntries (level : Nat) (path : String) :
    List (Key × Value) → List (String × List String)
  | [] => []
  | (key, v) :: rest =>
    (key.plain, dumpItems (level + 1) (path ++ "." ++ key.plain) v)
      :: dumpEntries level path rest

end

/-- The listing of every text in a value. -/
def dump (path : String) (v : Value) : String :=
  "<ul class=\"dump\">" ++ String.join (v.dumpItems 0 path) ++ "</ul>"

end Value

end BlockTemplate
