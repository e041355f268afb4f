import BlockTemplate.Text.Quoted

/-!
# UTF-8

Decoding of bytes, with the place and the reason where they are no UTF-8, and the two conventions
for text files: a byte order mark at the start is dropped, and all line breaks become line feeds.
-/

namespace BlockTemplate

/-- Why bytes are no text: where, which bytes, and what is wrong with them. -/
structure EncodingError where
  position : Nat
  bytes : List UInt8
  reason : String
deriving DecidableEq, Repr

/-- The message of an encoding error. -/
def EncodingError.message (e : EncodingError) : String :=
  let rest := ": " ++ e.reason
  match e.bytes with
  | [byte] =>
    "'utf-8' codec can't decode byte 0x" ++ String.ofList (hexDigits 2 byte.toNat)
      ++ " in position " ++ toString e.position ++ rest
  | bytes =>
    "'utf-8' codec can't decode bytes in position " ++ toString e.position ++ "-"
      ++ toString (e.position + bytes.length - 1) ++ rest

/-- What a first byte calls for: its share of the code point, and the ranges of the bytes that have
    to follow. -/
def utf8Lead? (byte : UInt8) : Option (Nat × List (UInt8 × UInt8)) :=
  let b := byte.toNat
  if b < 0x80 then some (b, [])
  else if 0xC2 ≤ b ∧ b ≤ 0xDF then some (b - 0xC0, [(0x80, 0xBF)])
  else if b = 0xE0 then some (0, [(0xA0, 0xBF), (0x80, 0xBF)])
  else if b = 0xED then some (0xD, [(0x80, 0x9F), (0x80, 0xBF)])
  else if 0xE1 ≤ b ∧ b ≤ 0xEF then some (b - 0xE0, [(0x80, 0xBF), (0x80, 0xBF)])
  else if b = 0xF0 then some (0, [(0x90, 0xBF), (0x80, 0xBF), (0x80, 0xBF)])
  else if 0xF1 ≤ b ∧ b ≤ 0xF3 then some (b - 0xF0, [(0x80, 0xBF), (0x80, 0xBF), (0x80, 0xBF)])
  else if b = 0xF4 then some (4, [(0x80, 0x8F), (0x80, 0xBF), (0x80, 0xBF)])
  else none

/-- Decode bytes that start at a position. Of a character that has begun, `code` is the part of the
    code point read so far, `read` its bytes backwards, and `wanted` the ranges of the bytes to
    come. -/
def decodeUtf8From (position code : Nat) (read : List UInt8) (wanted : List (UInt8 × UInt8)) :
    List UInt8 → Except EncodingError (List Char)
  | [] =>
    if wanted.isEmpty then .ok []
    else .error ⟨position - read.length, read.reverse, "unexpected end of data"⟩
  | byte :: rest =>
    match wanted with
    | [] =>
      match utf8Lead? byte with
      | none => .error ⟨position, [byte], "invalid start byte"⟩
      | some (code, []) => do
        return Char.ofNat code :: (← decodeUtf8From (position + 1) 0 [] [] rest)
      | some (code, wanted) => decodeUtf8From (position + 1) code [byte] wanted rest
    | (low, high) :: more =>
      if low ≤ byte && byte ≤ high then
        let code := code * 64 + (byte.toNat - 0x80)
        if more.isEmpty then do
          return Char.ofNat code :: (← decodeUtf8From (position + 1) 0 [] [] rest)
        else decodeUtf8From (position + 1) code (byte :: read) more rest
      else .error ⟨position - read.length, read.reverse, "invalid continuation byte"⟩

/-- The text that bytes encode. -/
def decodeUtf8 (bytes : List UInt8) : Except EncodingError (List Char) :=
  decodeUtf8From 0 0 [] [] bytes

/-- The bytes that encode a text. -/
def encodeUtf8 (s : String) : List UInt8 := s.toUTF8.data.toList

/-- Turn every line break into a line feed; a carriage return and a line feed after it are one. -/
def unifyLineBreaks : List Char → List Char
  | [] => []
  | '\r' :: '\n' :: rest => '\n' :: unifyLineBreaks rest
  | '\r' :: rest => '\n' :: unifyLineBreaks rest
  | c :: rest => c :: unifyLineBreaks rest

/-- The text of a file. -/
def decodeTextFile (bytes : List UInt8) : Except EncodingError (List Char) :=
  (decodeUtf8 bytes).map unifyLineBreaks

/-- The text of a file that may start with a byte order mark. A file that ends within the mark is
    empty. -/
def decodeMarkedFile (bytes : List UInt8) : Except EncodingError (List Char) :=
  match bytes with
  | [0xEF] | [0xEF, 0xBB] => .ok []
  | 0xEF :: 0xBB :: 0xBF :: rest => decodeTextFile rest
  | bytes => decodeTextFile bytes

end BlockTemplate
