import BlockTemplate.Number.Text

/-!
# JSON values and their text

Objects keep the order of their members. Numbers keep their kind: an integer is written without a
fraction, a double-precision number with the fewest digits that read back, and what is not finite by
name. Only the quote, the backslash and control characters are escaped.
-/

namespace BlockTemplate

/-- A JSON value. -/
inductive Json where
  | null
  | bool (b : Bool)
  | number (n : Number)
  | text (s : String)
  | array (items : List Json)
  | object (members : List (String × Json))
deriving Repr, Inhabited

namespace Json

/-- The integer `n`. -/
abbrev int (n : Int) : Json := .number (.int n)

/-- What stands between items and between a name and its value. -/
structure Spacing where
  item : List Char
  name : List Char

/-- A blank after each comma and colon. -/
def Spacing.spaced : Spacing := ⟨[',', ' '], [':', ' ']⟩

/-- No blanks. -/
def Spacing.compact : Spacing := ⟨[','], [':']⟩

/-- Four hexadecimal digits. -/
def escapeDigits (code : Nat) : List Char :=
  let digits := Nat.toDigits 16 code
  List.replicate (4 - digits.length) '0' ++ digits

/-- A character as it stands between the quotes. -/
def escapeChar (c : Char) : List Char :=
  if c = '"' then ['\\', '"']
  else if c = '\\' then ['\\', '\\']
  else if c = '\n' then ['\\', 'n']
  else if c = '\r' then ['\\', 'r']
  else if c = '\t' then ['\\', 't']
  else if c = '\x08' then ['\\', 'b']
  else if c = '\x0c' then ['\\', 'f']
  else if c.toNat < 0x20 then '\\' :: 'u' :: escapeDigits c.toNat
  else [c]

/-- The text between quotes. -/
def writeText (s : String) : List Char := '"' :: s.toList.flatMap escapeChar ++ ['"']

/-- A number; what is not finite is written by name. -/
def writeNumber : Number → List Char
  | .int n => (intText n).toList
  | .float .nan => ['N', 'a', 'N']
  | .float (.infinity negative) => (if negative then "-Infinity" else "Infinity").toList
  | .float (.finite negative m e) => (Number.floatLiteral negative m e).toList

mutual

/-- The text of a JSON value. -/
def write (spacing : Spacing) : Json → List Char
  | .null => ['n', 'u', 'l', 'l']
  | .bool true => ['t', 'r', 'u', 'e']
  | .bool false => ['f', 'a', 'l', 's', 'e']
  | .number n => writeNumber n
  | .text s => writeText s
  | .array items => '[' :: writeItems spacing items ++ [']']
  | .object members => '{' :: writeMembers spacing members ++ ['}']

def writeItems (spacing : Spacing) : List Json → List Char
  | [] => []
  | [j] => write spacing j
  | j :: rest => write spacing j ++ spacing.item ++ writeItems spacing rest

def writeMembers (spacing : Spacing) : List (String × Json) → List Char
  | [] => []
  | [(name, j)] => writeText name ++ spacing.name ++ write spacing j
  | (name, j) :: rest =>
    writeText name ++ spacing.name ++ write spacing j ++ spacing.item ++ writeMembers spacing rest

end

/-- The text with blanks after commas and colons. -/
def spacedText (j : Json) : String := String.ofList (j.write .spaced)

/-- The text without blanks. -/
def compactText (j : Json) : String := String.ofList (j.write .compact)

end Json

end BlockTemplate
