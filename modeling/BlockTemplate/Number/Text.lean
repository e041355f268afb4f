import BlockTemplate.Number.Arithmetic
import BlockTemplate.Number.Decimal

/-!
# Text of template numbers

`Number.shown` is what a tag renders; `Number.literal` keeps every digit and is what is written
where the number has to be read back.
-/

namespace BlockTemplate

/-- The digits of an integer, after a minus sign if it is negative. -/
def intText (n : Int) : String :=
  String.ofList (if n < 0 then '-' :: Nat.toDigits 10 n.natAbs else Nat.toDigits 10 n.natAbs)

namespace Number

/-- Rendered numbers have at most fourteen significant digits, drop a zero fraction, and take an
    exponent below a ten-thousandth and from fourteen digits on. -/
def shownLayout : DecimalLayout where
  plainFrom := -4
  plainBelow := 14
  pointZero := false
  mark := 'E'

/-- Literal numbers have the fewest digits that read back, keep a zero fraction, and take an
    exponent below a ten-thousandth and from sixteen digits on. -/
def literalLayout : DecimalLayout where
  plainFrom := -4
  plainBelow := 16
  pointZero := true
  mark := 'e'

/-- Significant digits of a rendered number. -/
def shownDigits : Nat := 14

/-- Whole numbers below this bound are rendered with all their digits. -/
def shownWholeBound : Nat := Nat.pow 10 15

def signed (negative : Bool) (text : List Char) : String :=
  String.ofList (if negative then '-' :: text else text)

/-- The text that a number renders to. -/
def shown : Number → String
  | .int n => intText n
  | .float .nan => "NAN"
  | .float (.infinity negative) => if negative then "-INF" else "INF"
  | .float (.finite negative m e) =>
    -- the sign of zero is lost here
    if Binary64.isWhole m e ∧ Binary64.wholePart m e < shownWholeBound then
      let whole : Int := Binary64.wholePart m e
      intText (if negative then -whole else whole)
    else signed negative (shownLayout.write (Decimal.significant shownDigits m e))

/-- The text of a finite double-precision number that reads back to it. -/
def floatLiteral (negative : Bool) (mantissa : Nat) (exponent : Int) : String :=
  if mantissa = 0 then signed negative ['0', '.', '0']
  else signed negative (literalLayout.write (Decimal.shortest mantissa exponent))

/-- The text of a number with every digit that it needs. -/
def literal : Number → String
  | .int n => intText n
  | .float .nan => "nan"
  | .float (.infinity negative) => if negative then "-inf" else "inf"
  | .float (.finite negative m e) => floatLiteral negative m e

end Number

end BlockTemplate
