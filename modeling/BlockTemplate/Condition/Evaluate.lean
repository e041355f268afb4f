import BlockTemplate.Condition.Postfix
import BlockTemplate.Reference.Resolve
import BlockTemplate.Value.Compare

/-!
# Evaluating conditions

The tokens of a condition run on a stack of values. An operand that is missing counts as null. Every
operand is evaluated, also where the other one decides.
-/

namespace BlockTemplate

namespace Value

/-- The number that an arithmetic operator sees: that at the start of a text, nothing for null, and
    one for true. A container has none. -/
def toNumber : Value → Except RenderError Number
  | .null => .ok (.int 0)
  | .bool b => .ok (.int b.toNat)
  | .number n => .ok n
  | .text s => .ok (leadingNumber s)
  | v => .error (.unsupportedOperand v.typeName)

/-- An arithmetic operation on the numbers of two values. -/
def arithmetic (op : Number → Number → Except ArithmeticError Number) (a b : Value) :
    Except RenderError Value := do
  let x ← a.toNumber
  let y ← b.toNumber
  match op x y with
  | .ok n => .ok (.number n)
  | .error e => .error (.arithmetic e)

/-- The entries of `a`, and those of `b` whose keys `a` lacks. -/
def unionEntries (a b : List (Key × Value)) : List (Key × Value) :=
  b.foldl
    (fun known (key, v) => if (valueOf? key known).isSome then known else upsert key v known) a

/-- The sum of two numbers, or the union of two arrays by their keys. -/
def add (a b : Value) : Except RenderError Value :=
  match a.entries?, b.entries? with
  | some x, some y => .ok (.mapping .temporary (unionEntries x y))
  | _, _ => arithmetic Number.add a b

/-- The remainder of the integer parts of two numbers. -/
def remainder (a b : Value) : Except RenderError Value := do
  let x ← a.toNumber
  -- the left operand is truncated before the right one is looked at
  match x.truncate with
  | .error e => .error (.arithmetic e)
  | .ok _ => arithmetic Number.mod (.number x) b

end Value

namespace Value

/-- Whether a comparison has to write an integer with too many digits, because it stands beside a
    text that is no number. -/
def needsUnwritable : Value → Value → Bool
  | .number n, .text s | .text s, .number n => n.isUnwritable && (parseNumber? s).isNone
  | _, _ => false

/-- The outcome of a comparison of two values. -/
def compared {α : Type} (a b : Value) (outcome : α) : Except RenderError α :=
  if needsUnwritable a b then .error (.arithmetic .unwritable) else .ok outcome

/-- Whether one of the values loosely equals another one. Those behind the first one that does are
    not compared. -/
def anyEquals (needle : Value) : List Value → Except RenderError Bool
  | [] => .ok false
  | v :: rest => do
    if ← compared v needle (v.looselyEqual needle) then return true else anyEquals needle rest

end Value

/-- The value of a binary operator. -/
def BinaryOperator.apply (op : BinaryOperator) (a b : Value) : Except RenderError Value :=
  let truth (holds : Bool) : Except RenderError Value := a.compared b (.bool holds)
  match op with
  | .multiply => Value.arithmetic Number.mul a b
  | .divide => Value.arithmetic Number.div a b
  | .remainder => Value.remainder a b
  | .add => Value.add a b
  | .subtract => Value.arithmetic Number.sub a b
  | .has => do return .bool (← Value.anyEquals b (a.elements?.getD []))
  | .hasSubstring => .ok (.bool (a.hasSubstring b))
  | .equal => truth (a.looselyEqual b)
  | .identical => .ok (.bool (a.strictlyEqual b))
  | .unequal => truth !(a.looselyEqual b)
  | .notIdentical => .ok (.bool !(a.strictlyEqual b))
  | .less => truth (a.compare b == .lt)
  | .greater => truth (a.compare b == .gt)
  | .atMost => truth (a.compare b != .gt)
  | .atLeast => truth (a.compare b != .lt)
  | .and => .ok (.bool (a.isTrue && b.isTrue))
  | .or => .ok (.bool (a.isTrue || b.isTrue))
  | .xor => .ok (.bool (a.isTrue != b.isTrue))

/-- The stack after an operator. Parentheses have no part in the postfix form. -/
def Operator.run (op : Operator) (stack : List Value) : Except RenderError (List Value) :=
  match op with
  | .openParen | .closeParen => .ok stack
  | .not => .ok (.bool (!(stack.head?.getD .null).isTrue) :: stack.tail)
  | .binary op => do
    let right := stack.head?.getD .null
    let left := stack.tail.head?.getD .null
    return (← op.apply left right) :: stack.tail.tail

/-- The stack after a token. -/
def Token.run (ctx : Context) (stack : List Value) : Token → Except RenderError (List Value)
  | .operand value => do return (← value.operandValue ctx) :: stack
  | .operator op => op.run stack

/-- The stack after a sequence of tokens. -/
def runTokens (ctx : Context) (stack : List Value) : List Token → Except RenderError (List Value)
  | [] => .ok stack
  | token :: rest => do runTokens ctx (← token.run ctx stack) rest

/-- Whether the condition holds. -/
def Condition.holds (ctx : Context) (c : Condition) : Except RenderError Bool := do
  let stack ← runTokens ctx [] c.tokens
  return (stack.head?.getD .null).isTrue

end BlockTemplate
