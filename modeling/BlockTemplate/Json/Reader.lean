import BlockTemplate.Json.Basic
import BlockTemplate.OrderedMap
import BlockTemplate.Text.Basic

/-!
# Reading JSON

The reader accepts what `Json.write` writes, with any spacing. Of equal member names the last value
counts, at the place of the first. A number without fraction and exponent is an integer, which must
not have too many digits. Arrays and objects are read only down to some depth.
-/

namespace BlockTemplate.Json

/-- Why a text has no value. -/
inductive ReadError where
  | malformed
  | nestedTooDeep
deriving DecidableEq, Repr

/-- What has been read, nothing being malformed. -/
def ReadError.orMalformed {α : Type} : Option α → Except ReadError α
  | some a => .ok a
  | none => .error .malformed

/-- The most arrays and objects that can be open at once. -/
def mostOpen : Nat := 985

/-- Blanks between tokens. -/
def isSpace (c : Char) : Bool := c == ' ' || c == '\t' || c == '\n' || c == '\r'

def skipSpace (s : List Char) : List Char := s.dropWhile isSpace

/-- Value of a hexadecimal digit. -/
def hexValue? (c : Char) : Option Nat :=
  if '0' ≤ c && c ≤ '9' then some (c.toNat - '0'.toNat)
  else if 'a' ≤ c && c ≤ 'f' then some (c.toNat - 'a'.toNat + 10)
  else if 'A' ≤ c && c ≤ 'F' then some (c.toNat - 'A'.toNat + 10)
  else none

/-- Value of four hexadecimal digits. -/
def hexCode? (a b c d : Char) : Option Nat := do
  return (((← hexValue? a) * 16 + (← hexValue? b)) * 16 + (← hexValue? c)) * 16 + (← hexValue? d)

/-- The character of a one-letter escape. -/
def shortEscape? (c : Char) : Option Char :=
  if c = '"' || c = '\\' || c = '/' then some c
  else if c = 'n' then some '\n'
  else if c = 'r' then some '\r'
  else if c = 't' then some '\t'
  else if c = 'b' then some '\x08'
  else if c = 'f' then some '\x0c'
  else none

/-- The code point of a pair of surrogates. -/
def joinSurrogates (high low : Nat) : Nat := 0x10000 + (high - 0xD800) * 0x400 + (low - 0xDC00)

/-- The rest of a text after its opening quote: the characters up to the closing quote, and what
    follows it. -/
def readText : List Char → Option (List Char × List Char)
  | [] => none
  | '"' :: rest => some ([], rest)
  | '\\' :: 'u' :: a :: b :: c :: d :: '\\' :: 'u' :: e :: f :: g :: h :: rest => do
    let high ← hexCode? a b c d
    let low ← hexCode? e f g h
    -- two escapes are one character if they are the halves of a pair
    if 0xD800 ≤ high && high < 0xDC00 && 0xDC00 ≤ low && low < 0xE000 then
      let (chars, after) ← readText rest
      return (Char.ofNat (joinSurrogates high low) :: chars, after)
    else
      let (chars, after) ← readText ('\\' :: 'u' :: e :: f :: g :: h :: rest)
      return (Char.ofNat high :: chars, after)
  | '\\' :: 'u' :: a :: b :: c :: d :: rest => do
    let code ← hexCode? a b c d
    let (chars, after) ← readText rest
    return (Char.ofNat code :: chars, after)
  | '\\' :: c :: rest => do
    let char ← shortEscape? c
    let (chars, after) ← readText rest
    return (char :: chars, after)
  | c :: rest =>
    if c.toNat < 0x20 then none
    else do
      let (chars, after) ← readText rest
      return (c :: chars, after)

/-- Digits of a number. -/
def isNumeral (c : Char) : Bool := '0' ≤ c && c ≤ '9'

def numeralsValue (digits : List Char) : Nat :=
  digits.foldl (fun n c => n * 10 + (c.toNat - '0'.toNat)) 0

/-- A fraction: its digits, and the rest. -/
def readFraction : List Char → List Char × List Char
  | '.' :: rest =>
    let digits := rest.takeWhile isNumeral
    if digits.isEmpty then ([], '.' :: rest) else (digits, rest.dropWhile isNumeral)
  | s => ([], s)

/-- An exponent, if there is one, and the rest. -/
def readExponent (s : List Char) : Option Int × List Char :=
  match s with
  | [] => (none, [])
  | c :: afterMark =>
    if c = 'e' ∨ c = 'E' then
      let (negative, afterSign) := match afterMark with
        | '-' :: rest => (true, rest)
        | '+' :: rest => (false, rest)
        | rest => (false, rest)
      let digits := afterSign.takeWhile isNumeral
      if digits.isEmpty then (none, s)
      else
        let size : Int := numeralsValue digits
        (some (if negative then -size else size), afterSign.dropWhile isNumeral)
    else (none, s)

/-- A number after its sign. -/
def readNumber (negative : Bool) (s : List Char) : Option (Number × List Char) :=
  let leading := s.takeWhile isNumeral
  -- a leading zero stands alone
  let whole := if leading.head? == some '0' then ['0'] else leading
  if whole.isEmpty then none
  else
    let (fraction, afterFraction) := readFraction (s.drop whole.length)
    let (exponent, rest) := readExponent afterFraction
    -- without fraction and exponent the number is an integer
    if fraction.isEmpty && exponent.isNone then
      if mostDigits < whole.length then none
      else
        let n : Int := numeralsValue whole
        some (.int (if negative then -n else n), rest)
    else
      let places : Int := fraction.length
      let x := Binary64.ofDecimal negative (numeralsValue (whole ++ fraction))
        (exponent.getD 0 - places)
      some (.float x, rest)

/-- A value that is written as a word or a number. -/
def readScalar (s : List Char) : Option (Json × List Char) :=
  let words : List (List Char × Json) :=
    [("null".toList, .null), ("true".toList, .bool true), ("false".toList, .bool false),
      ("NaN".toList, .number (.float .nan)),
      ("Infinity".toList, .number (.float (.infinity false))),
      ("-Infinity".toList, .number (.float (.infinity true)))]
  match words.findSome? fun (word, j) => (afterPattern? word s).map (j, ·) with
  | some hit => some hit
  | none =>
    match s with
    | '-' :: rest => (readNumber true rest).map fun (n, after) => (.number n, after)
    | _ => (readNumber false s).map fun (n, after) => (.number n, after)

mutual

/-- A value at the start of the text, and the rest; `room` more arrays and objects can be opened.
    Every call reads a character before the next, so twice the length of the text is fuel enough. -/
def readValue (room : Nat) : Nat → List Char → Except ReadError (Json × List Char)
  | 0, _ => .error .malformed
  | fuel + 1, s =>
    match s with
    | '"' :: rest => do
      let (chars, after) ← ReadError.orMalformed (readText rest)
      return (.text (String.ofList chars), after)
    | '[' :: rest =>
      if room = 0 then .error .nestedTooDeep
      else
        match skipSpace rest with
        | ']' :: after => .ok (.array [], after)
        | inner => do
          let (items, after) ← readItems (room - 1) fuel inner
          return (.array items, after)
    | '{' :: rest =>
      if room = 0 then .error .nestedTooDeep
      else
        match skipSpace rest with
        | '}' :: after => .ok (.object [], after)
        | inner => do
          let (members, after) ← readMembers (room - 1) fuel inner
          -- of equal names the last value counts
          return (.object (ofEntries members), after)
    | s => ReadError.orMalformed (readScalar s)

/-- One item or more, up to the closing bracket. -/
def readItems (room : Nat) : Nat → List Char → Except ReadError (List Json × List Char)
  | 0, _ => .error .malformed
  | fuel + 1, s => do
    let (item, rest) ← readValue room fuel s
    match skipSpace rest with
    | ',' :: more => do
      let (items, after) ← readItems room fuel (skipSpace more)
      return (item :: items, after)
    | ']' :: after => return ([item], after)
    | _ => throw .malformed

/-- One member or more, up to the closing brace. -/
def readMembers (room : Nat) : Nat → List Char → Except ReadError (List (String × Json) × List Char)
  | 0, _ => .error .malformed
  | fuel + 1, s =>
    match s with
    | '"' :: rest => do
      let (name, afterName) ← ReadError.orMalformed (readText rest)
      match skipSpace afterName with
      | ':' :: beforeValue => do
        let (value, afterValue) ← readValue room fuel (skipSpace beforeValue)
        match skipSpace afterValue with
        | ',' :: more => do
          let (members, after) ← readMembers room fuel (skipSpace more)
          return ((String.ofList name, value) :: members, after)
        | '}' :: after => return ([(String.ofList name, value)], after)
        | _ => throw .malformed
      | _ => throw .malformed
    | _ => .error .malformed

end

/-- The JSON value that a whole text denotes. -/
def parse (s : List Char) : Except ReadError Json := do
  let chars := skipSpace s
  let (j, rest) ← readValue mostOpen (2 * chars.length + 2) chars
  if (skipSpace rest).isEmpty then return j else throw .malformed

/-- The JSON value that a whole text denotes. -/
def parse? (s : String) : Option Json := (parse s.toList).toOption

end BlockTemplate.Json
