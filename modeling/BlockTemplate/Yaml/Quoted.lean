import BlockTemplate.Json.Reader
import BlockTemplate.Yaml.Cursor

/-!
# Quoted scalars in YAML

Between double quotes a backslash starts an escape; between single quotes two of them stand for one.
In both, blanks around a line break are dropped, a single break becomes a blank, and of several
breaks the first one is dropped.
-/

namespace BlockTemplate.Yaml

/-- The breaks in a row with blanks between them, and the rest without blanks at its start. No
    document may end in between. -/
def breaksIn? : (fuel : Nat) → List Char → Option (List Char × List Char)
  | 0, _ => none
  | fuel + 1, s =>
    match s.dropWhile isSpace with
    | [] => some ([], [])
    | c :: rest =>
      if !isBreak c then some ([], c :: rest)
      else if isSeparator rest then none
      else (breaksIn? fuel rest).map fun (breaks, after) => (c :: breaks, after)

/-- The character of an escape of one letter. -/
def letterEscape? (c : Char) : Option Char :=
  if c == '"' || c == '\\' || c == '/' || c == ' ' || c == '\t' then some c
  else if c == '0' then some '\x00'
  else if c == 'a' then some '\x07'
  else if c == 'v' then some '\x0b'
  else if c == 'e' then some '\x1b'
  else if c == 'N' then some '\x85'
  else if c == '_' then some '\xa0'
  else if c == 'L' then some '\u2028'
  else if c == 'P' then some '\u2029'
  else Json.shortEscape? c

/-- The number of digits of an escape by code. -/
def codeLength? (c : Char) : Option Nat :=
  if c == 'x' then some 2 else if c == 'u' then some 4 else if c == 'U' then some 8 else none

/-- The code at the start of a text, and the rest. -/
def code? (length : Nat) (s : List Char) : Option (Nat × List Char) := do
  let digits := s.take length
  if digits.length < length then none
  else
    let values ← digits.mapM Json.hexValue?
    return (values.foldl (fun code value => code * 16 + value) 0, s.drop length)

/-- Whether a code is the first half of a character. -/
def isHighHalf (code : Nat) : Bool := 0xD800 ≤ code && code < 0xDC00

/-- The character of an escape after its backslash, and the rest. Two escapes that are the halves of
    a character are one. -/
def escape? : List Char → Option (Char × List Char)
  | [] => none
  | c :: rest =>
    match letterEscape? c with
    | some char => some (char, rest)
    | none => do
      let (code, after) ← code? (← codeLength? c) rest
      match after with
      | '\\' :: 'u' :: second =>
        match code? 4 second with
        | some (low, after) =>
          if isHighHalf code && 0xDC00 ≤ low && low < 0xE000 then
            return (Char.ofNat (Json.joinSurrogates code low), after)
          else return (Char.ofNat code, '\\' :: 'u' :: second)
        | none => return (Char.ofNat code, '\\' :: 'u' :: second)
      | after => return (Char.ofNat code, after)

/-- The text of a quoted scalar after its opening quote, and what follows the closing one. Every
    call reads a character, so that the length of the text is fuel enough. -/
def quotedText? (double : Bool) : (fuel : Nat) → List Char → Option (List Char × List Char)
  | 0, _ => none
  | _ + 1, [] => none
  | fuel + 1, c :: rest =>
    let goOn (chars : List Char) (s : List Char) : Option (List Char × List Char) :=
      (quotedText? double fuel s).map fun (text, after) => (chars ++ text, after)
    if isSpace c || isBreak c then do
      let (breaks, after) ← breaksIn? (rest.length + 2) (c :: rest)
      -- blanks without a break are kept
      if breaks.isEmpty then goOn ((c :: rest).takeWhile isSpace) after
      else goOn (foldedBreaks breaks) after
    else if double then
      if c == '"' then some ([], rest)
      else if c == '\\' then
        match rest with
        | b :: _ =>
          if isBreak b then do
            -- an escaped break is dropped, and those behind it are kept
            let (breaks, after) ← breaksIn? (rest.length + 1) rest
            goOn (breaks.tail.map breakChar) after
          else do
            let (char, after) ← escape? rest
            goOn [char] after
        | [] => none
      else goOn [c] rest
    else if c == '\'' then
      match rest with
      | '\'' :: rest => goOn ['\''] rest
      | rest => some ([], rest)
    else goOn [c] rest

end BlockTemplate.Yaml
