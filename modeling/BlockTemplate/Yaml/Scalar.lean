import BlockTemplate.Json.Reader
import BlockTemplate.Value.Basic

/-!
# Values of plain scalars in YAML

A plain scalar is null, a truth value, a number, or else a text. An integer must not have too many
digits.
-/

namespace BlockTemplate.Yaml

/-- Plain words that are no texts. -/
def words : List (String × Value) :=
  [("", .null), ("~", .null), ("null", .null), ("Null", .null), ("NULL", .null),
   ("true", .bool true), ("True", .bool true), ("TRUE", .bool true),
   ("false", .bool false), ("False", .bool false), ("FALSE", .bool false)]

/-- A number after its sign, with a whole part. -/
def unsigned? (negative : Bool) (s : List Char) : Except ArithmeticError (Option Number) :=
  let whole := s.takeWhile Json.isNumeral
  let afterWhole := s.dropWhile Json.isNumeral
  let (fraction, hasPoint, afterFraction) := match afterWhole with
    | '.' :: rest => (rest.takeWhile Json.isNumeral, true, rest.dropWhile Json.isNumeral)
    | rest => ([], false, rest)
  let (exponent, rest) := Json.readExponent afterFraction
  if whole.isEmpty || !rest.isEmpty then .ok none
  else if !hasPoint && exponent.isNone then
    if mostDigits < whole.length then .error (.unreadable whole.length)
    else
      let n : Int := Json.numeralsValue whole
      .ok (some (.int (if negative then -n else n)))
  else
    let places : Int := fraction.length
    .ok (some (.float (Binary64.ofDecimal negative (Json.numeralsValue (whole ++ fraction))
      (exponent.getD 0 - places))))

/-- A number with an optional sign. -/
def number? : List Char → Except ArithmeticError (Option Number)
  | '-' :: rest => unsigned? true rest
  | '+' :: rest => unsigned? false rest
  | s => unsigned? false s

/-- The value of a plain scalar. -/
def plainValue (s : List Char) : Except ArithmeticError Value := do
  match valueOf? (String.ofList s) words with
  | some v => return v
  | none =>
    match ← number? s with
    | some n => return .number n
    | none => return .text (String.ofList s)

end BlockTemplate.Yaml
