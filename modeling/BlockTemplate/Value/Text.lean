import BlockTemplate.Value.Basic

/-!
# Text and truth of values

A tag renders a scalar as plain text and a container as an indented listing of its contents
(`Value.listing`), which also is the debug form of scalars.
-/

namespace BlockTemplate

/-- A text between single quotes, quotes and backslashes escaped. -/
def listedText (s : String) : String :=
  let escape (c : Char) : List Char := if c = '\\' ∨ c = '\'' then ['\\', c] else [c]
  String.ofList ('\'' :: s.toList.flatMap escape ++ ['\''])

/-- A key as a listing shows it. Integers and truth values stand without quotes. -/
def Key.listed : Key → String
  | .int n => intText n
  | .bool b => boolName b
  | key => listedText key.plain

/-- A number as a listing shows it. -/
def Number.listed : Number → String
  | .float .nan => Number.shown (.float .nan)
  | .float (.infinity negative) => Number.shown (.float (.infinity negative))
  | n => n.literal

namespace Value

/-- Two blanks for each level. -/
def padding (level : Nat) : String := String.ofList (List.replicate (2 * level) ' ')

/-- A line of an array listing; containers start on a line of their own. -/
def listedEntry (level : Nat) (key : String) (isContainer : Bool) (item : String) : String :=
  let pad := padding (level + 1)
  if isContainer then pad ++ key ++ " => \n" ++ pad ++ item ++ ",\n"
  else pad ++ key ++ " => " ++ item ++ ",\n"

/-- An array listing around its lines. -/
def listedArray (level : Nat) (lines : String) : String :=
  "array (\n" ++ lines ++ padding level ++ ")"

mutual

/-- The listing of a value at a level of indentation. An object is listed as its public
    attributes. -/
def listingAt (level : Nat) : Value → String
  | .null => "NULL"
  | .bool b => if b then "true" else "false"
  | .number n => n.listed
  | .text s => listedText s
  | .sequence _ items => listedArray level (listItems level 0 items)
  | .mapping _ entries => listedArray level (listEntries level entries)
  | .object _ className attributes _ =>
    "\\" ++ className ++ "::__set_state(" ++ listedArray level (listAttributes level attributes)
      ++ ")"

def listItems (level start : Nat) : List Value → String
  | [] => ""
  | v :: rest =>
    listedEntry level (intText start) v.isContainer (listingAt (level + 1) v)
      ++ listItems level (start + 1) rest

def listEntries (level : Nat) : List (Key × Value) → String
  | [] => ""
  | (key, v) :: rest =>
    listedEntry level key.listed v.isContainer (listingAt (level + 1) v) ++ listEntries level rest

def listAttributes (level : Nat) : List (String × Value) → String
  | [] => ""
  | (name, v) :: rest =>
    if isPrivate name then listAttributes level rest
    else listedEntry level (listedText name) v.isContainer (listingAt (level + 1) v)
      ++ listAttributes level rest

end

/-- The debug form of a value. -/
def listing (v : Value) : String := v.listingAt 0

/-- The text that a tag renders a value to: nothing for null and false, `1` for true. -/
def toText : Value → String
  | .null => ""
  | .bool b => if b then "1" else ""
  | .number n => n.shown
  | .text s => s
  | v => v.listing

/-- Whether a value counts as true: null, false, zero, the empty text, the text `0` and empty arrays
    do not. -/
def isTrue : Value → Bool
  | .null => false
  | .bool b => b
  | .number n => !n.isZero
  | .text s => s != "" && s != "0"
  | .sequence _ items => !items.isEmpty
  | .mapping _ entries => !entries.isEmpty
  | .object .. => true

end Value

end BlockTemplate
