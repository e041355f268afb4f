import BlockTemplate.Text.Basic
import BlockTemplate.Text.Digit
import BlockTemplate.Value.Basic

/-!
# Numeric text

A numeric text is an optional sign, digits with an optional fraction, and an optional exponent, with
padding around it. The digits may be of any script. A number that is whole and within the range of
64 signed bits is read as an integer, any other as a double-precision number; in both cases the text
is rounded to double precision first.
-/

namespace BlockTemplate

/-- Characters that may stand around a number. -/
def isPadding (c : Char) : Bool :=
  c == ' ' || c == '\t' || c == '\n' || c == '\r' || c == '\x0b' || c == '\x0c'

/-- A number as it is written: `digits * 10 ^ exponent` with a sign. -/
structure NumericText where
  negative : Bool
  digits : Nat
  exponent : Int
deriving DecidableEq, Repr

namespace NumericText

/-- Whole numbers below this bound are integers. -/
def intBound : Nat := Nat.pow 2 63

/-- A double-precision number as a template number: an integer if it is whole and in range. -/
def settle (x : Binary64) : Number :=
  match x.toInt? with
  | some n => if n.natAbs < intBound then .int n else .float x
  | none => .float x

/-- The number that the text denotes. -/
def value (t : NumericText) : Number := settle (Binary64.ofDecimal t.negative t.digits t.exponent)

/-- An optional sign: whether it is a minus, and the rest. -/
def takeSign : List Char → Bool × List Char
  | '-' :: rest => (true, rest)
  | '+' :: rest => (false, rest)
  | s => (false, s)

/-- Digits with an optional fraction, or a fraction alone: the digits, the number of them that stand
    after the point, and the rest. -/
def takeDecimal? (s : List Char) : Option (List Char × Nat × List Char) :=
  let whole := s.takeWhile isDigit
  match s.dropWhile isDigit with
  | '.' :: afterPoint =>
    let fraction := afterPoint.takeWhile isDigit
    if whole.isEmpty && fraction.isEmpty then none
    else some (whole ++ fraction, fraction.length, afterPoint.dropWhile isDigit)
  | rest => if whole.isEmpty then none else some (whole, 0, rest)

/-- An optional exponent; a letter without digits is none. -/
def takeExponent (s : List Char) : Int × List Char :=
  match s with
  | [] => (0, [])
  | c :: afterMark =>
    if c = 'e' ∨ c = 'E' then
      let (negative, afterSign) := takeSign afterMark
      let digits := afterSign.takeWhile isDigit
      if digits.isEmpty then (0, s)
      else
        let size : Int := digitsValue digits
        (if negative then -size else size, afterSign.dropWhile isDigit)
    else (0, s)

/-- The longest number at the start of the text, after padding, and the rest. -/
def take? (s : List Char) : Option (NumericText × List Char) :=
  let (negative, unsigned) := takeSign (s.dropWhile isPadding)
  match takeDecimal? unsigned with
  | none => none
  | some (digits, places, afterDigits) =>
    let (exponent, rest) := takeExponent afterDigits
    some (⟨negative, digitsValue digits, exponent - places⟩, rest)

/-- A text that is a number as a whole, padding apart. -/
def parse? (s : List Char) : Option NumericText :=
  match take? s with
  | some (t, rest) => if rest.all isPadding then some t else none
  | none => none

end NumericText

/-- The number that a fully numeric text denotes. -/
def parseNumber? (s : String) : Option Number := (NumericText.parse? s.toList).map (·.value)

/-- The number at the start of a text, or zero if it starts with none. -/
def leadingNumber (s : String) : Number :=
  match NumericText.take? s.toList with
  | some (t, _) => t.value
  | none => .int 0

/-- The digits of a text that denotes a position: there is no leading zero. A line break may
    follow. -/
def positionDigits? (s : String) : Option (List Char) :=
  let chars := s.toList
  let digits := if chars.getLast? == some '\n' then chars.dropLast else chars
  match digits with
  | ['0'] => some ['0']
  | c :: rest => if '1' ≤ c && c ≤ '9' && rest.all isDigit then some (c :: rest) else none
  | [] => none

/-- The position that a text denotes, if it denotes one. -/
def position? (s : String) : Except ArithmeticError (Option Nat) :=
  match positionDigits? s with
  | none => .ok none
  | some digits =>
    if mostDigits < digits.length then .error (.unreadable digits.length)
    else .ok (some (digitsValue digits))

end BlockTemplate
