/-!
# Operators of conditions

Operators have levels: the lower the level, the tighter an operator binds. All binary operators
group to the left. The negation binds looser than comparisons, so that `! a == b` negates the
comparison.
-/

namespace BlockTemplate

/-- An operator with two operands. -/
inductive BinaryOperator where
  | multiply
  | divide
  | remainder
  | add
  | subtract
  | has
  | hasSubstring
  | equal
  | identical
  | unequal
  | notIdentical
  | less
  | greater
  | atMost
  | atLeast
  | and
  | or
  | xor
deriving DecidableEq, Repr

namespace BinaryOperator

/-- The operator as it is written. -/
def symbol : BinaryOperator → String
  | multiply => "*"
  | divide => "/"
  | remainder => "%"
  | add => "+"
  | subtract => "-"
  | has => "HAS"
  | hasSubstring => "~="
  | equal => "=="
  | identical => "==="
  | unequal => "!="
  | notIdentical => "!=="
  | less => "<"
  | greater => ">"
  | atMost => "<="
  | atLeast => ">="
  | and => "AND"
  | or => "OR"
  | xor => "XOR"

/-- How tightly the operator binds. -/
def level : BinaryOperator → Nat
  | multiply | divide | remainder => 1
  | add | subtract => 2
  | has | hasSubstring => 3
  | equal | identical | unequal | notIdentical | less | greater | atMost | atLeast => 4
  | and => 6
  | or | xor => 7

end BinaryOperator

/-- An operator or a parenthesis. -/
inductive Operator where
  | openParen
  | closeParen
  | not
  | binary (op : BinaryOperator)
deriving DecidableEq, Repr

namespace Operator

/-- All operators and parentheses. -/
def all : List Operator :=
  [openParen, closeParen, not, binary .multiply, binary .divide, binary .remainder, binary .add,
   binary .subtract, binary .has, binary .hasSubstring, binary .equal, binary .identical,
   binary .unequal, binary .notIdentical, binary .less, binary .greater, binary .atMost,
   binary .atLeast, binary .and, binary .or, binary .xor]

/-- The operator as it is written. -/
def symbol : Operator → String
  | openParen => "("
  | closeParen => ")"
  | not => "!"
  | binary op => op.symbol

/-- The operator that is written so. -/
def ofSymbol? (s : String) : Option Operator := all.find? (·.symbol == s)

/-- Whether an operator that waits for its right operand takes it before a binary operator of the
    given level can. An open parenthesis waits for its partner instead. -/
def precedes (level : Nat) : Operator → Bool
  | openParen | closeParen => false
  | not => 5 ≤ level
  | binary op => op.level ≤ level

end Operator

end BlockTemplate
