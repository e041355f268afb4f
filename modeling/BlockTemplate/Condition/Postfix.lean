import BlockTemplate.Condition.Token
import BlockTemplate.Error

/-!
# Postfix form of conditions

`postfix?` moves each operator behind its operands, with a stack of the operators that wait for
their right operand. It fails exactly if the parentheses are unbalanced, and leaves none in its
result.
-/

namespace BlockTemplate

/-- The postfix form of `tokens`, with `stack` the operators and open parentheses that wait, the
    latest first. -/
def postfixFrom (stack : List Operator) : List Token → Option (List Token)
  | [] => if stack.contains .openParen then none else some (stack.map .operator)
  | .operand value :: rest => (postfixFrom stack rest).map (.operand value :: ·)
  | .operator .openParen :: rest => postfixFrom (.openParen :: stack) rest
  | .operator .not :: rest => postfixFrom (.not :: stack) rest
  | .operator .closeParen :: rest =>
    -- every operator of the group has both of its operands now
    let group := stack.takeWhile (· != .openParen)
    match stack.dropWhile (· != .openParen) with
    | [] => none
    | _ :: below => (postfixFrom below rest).map (group.map .operator ++ ·)
  | .operator (.binary op) :: rest =>
    -- what precedes the operator has its right operand complete
    let complete := stack.takeWhile (Operator.precedes op.level)
    let waiting := stack.dropWhile (Operator.precedes op.level)
    (postfixFrom (.binary op :: waiting) rest).map (complete.map .operator ++ ·)

/-- The postfix form of a sequence of tokens; none if its parentheses are unbalanced. -/
def postfix? (tokens : List Token) : Option (List Token) := postfixFrom [] tokens

/-- A compiled condition: its source text and its tokens in postfix form. -/
structure Condition where
  source : Label
  tokens : List Token
deriving Inhabited

namespace Condition

/-- Compile the text of a condition. -/
def parse (source : List Char) : Except CompileError Condition :=
  match postfix? (Token.scan source) with
  | some tokens => .ok ⟨.text (String.ofList source), tokens⟩
  | none => .error (.unbalancedParentheses (String.ofList source))

/-- The postfix form as diagnostics show it. -/
def postfixText (c : Condition) : String := " ".intercalate (c.tokens.map Token.toSource)

/-- The references among the operands. -/
def references (c : Condition) : List Reference :=
  c.tokens.filterMap fun
    | .operand (.reference target) => some target
    | _ => none

end Condition

end BlockTemplate
