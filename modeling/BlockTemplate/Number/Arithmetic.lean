import BlockTemplate.Number.Binary64

/-!
# Template numbers

Integers have any size and stay integers under `+`, `-` and `*`. As soon as one operand is a
double-precision number the other is converted, and an integer that is too large for that is an
error. Comparison never converts: it is exact, whatever the two kinds.
-/

namespace BlockTemplate

/-- A number of a template: an integer of any size, or a double-precision number. -/
inductive Number where
  | int (n : Int)
  | float (x : Binary64)
deriving DecidableEq, Repr, Inhabited

/-- Why an arithmetic operation has no result. -/
inductive ArithmeticError where
  /-- an integer, or a quotient of integers, exceeds every double-precision number -/
  | tooLarge
  /-- an infinity has no integer part -/
  | infinityToInteger
  /-- what is not a number has no integer part -/
  | notANumberToInteger
  | divisionByZero
  | moduloByZero
  /-- a text has more digits than are read as an integer -/
  | unreadable (digits : Nat)
  /-- an integer has more digits than are written -/
  | unwritable
deriving DecidableEq, Repr

/-- Integers of more digits are neither read nor written. -/
def mostDigits : Nat := 4300

/-- What is told about an integer with too many digits. -/
def digitsMessage (details : String) : String :=
  "Exceeds the limit (" ++ toString mostDigits ++ " digits) for integer string conversion"
    ++ details ++ "; use sys.set_int_max_str_digits() to increase the limit"

/-- The message of an arithmetic error. -/
def ArithmeticError.message : ArithmeticError → String
  | .tooLarge => "integer too large for a double-precision number"
  | .infinityToInteger => "infinity has no integer part"
  | .notANumberToInteger => "cannot convert float NaN to integer"
  | .divisionByZero => "Division by zero"
  | .moduloByZero => "Modulo by zero"
  | .unreadable digits => digitsMessage (": value has " ++ toString digits ++ " digits")
  | .unwritable => digitsMessage ""

namespace Number

/-- Whether a number is an integer with too many digits to be written. -/
def isUnwritable : Number → Bool
  | .int n => Nat.pow 10 mostDigits ≤ n.natAbs
  | .float _ => false

/-- The number, if it can be written. -/
def written (n : Number) : Except ArithmeticError Number :=
  if n.isUnwritable then .error .unwritable else .ok n

/-- The number as a double-precision one. -/
def toBinary64 : Number → Except ArithmeticError Binary64
  | .int n => match Binary64.ofInt? n with
    | some x => .ok x
    | none => .error .tooLarge
  | .float x => .ok x

/-- The number with its exact value, never rounded. -/
def exact : Number → Binary64
  | .int n => .exactInt n
  | .float x => x

/-- The exact order of two numbers; what is not a number is ordered with nothing. -/
def compare? (a b : Number) : Option Ordering := a.exact.compare? b.exact

/-- Three-way comparison in which an unordered pair counts as equal. -/
def compare (a b : Number) : Ordering := (a.compare? b).getD .eq

/-- Numerical equality; what is not a number equals nothing. -/
def equals (a b : Number) : Bool := a.compare? b == some .eq

def isZero (a : Number) : Bool := a.exact.isZero

/-- Apply an operation to integers as such, and to any other pair as double-precision numbers. -/
def combine (onInts : Int → Int → Int) (onFloats : Binary64 → Binary64 → Binary64) :
    Number → Number → Except ArithmeticError Number
  | .int a, .int b => .ok (.int (onInts a b))
  | a, b => do
    let x ← a.toBinary64
    let y ← b.toBinary64
    return .float (onFloats x y)

def add : Number → Number → Except ArithmeticError Number := combine (· + ·) Binary64.add

def sub : Number → Number → Except ArithmeticError Number := combine (· - ·) Binary64.sub

def mul : Number → Number → Except ArithmeticError Number := combine (· * ·) Binary64.mul

/-- Quotient of integers, correctly rounded. -/
def divideInts (a b : Int) : Except ArithmeticError Number :=
  match Binary64.roundRatio ((a < 0) != (b < 0)) a.natAbs b.natAbs with
  | .infinity _ => .error .tooLarge
  | x => .ok (.float x)

/-- Integers that divide without remainder give an integer, any other pair a double-precision
    number. -/
def div (a b : Number) : Except ArithmeticError Number :=
  if b.isZero then .error .divisionByZero
  else match a, b with
    | .int a, .int b => if b ∣ a then .ok (.int (a / b)) else divideInts a b
    | a, b => do
      let x ← a.toBinary64
      let y ← b.toBinary64
      return .float (x.div y)

/-- The integer part, the fraction cut off. -/
def truncate : Number → Except ArithmeticError Int
  | .int n => .ok n
  | .float .nan => .error .notANumberToInteger
  | .float (.infinity _) => .error .infinityToInteger
  | .float (.finite n m e) =>
    let whole : Int := Binary64.wholePart m e
    .ok (if n then -whole else whole)

/-- The integer as rounded by its double-precision form. -/
def roundedInt (n : Int) : Except ArithmeticError Int := do
  truncate (.float (← (Number.int n).toBinary64))

/-- The remainder of the integer parts, with the sign of the dividend, computed on their
    double-precision forms. -/
def mod (a b : Number) : Except ArithmeticError Number := do
  let x ← a.truncate
  let y ← b.truncate
  if y = 0 then throw .moduloByZero
  return .int ((← roundedInt x).tmod (← roundedInt y))

end Number

end BlockTemplate
