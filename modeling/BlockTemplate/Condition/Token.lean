import BlockTemplate.Condition.Operator
import BlockTemplate.Reference.Parse
import BlockTemplate.Value.Text

/-!
# Tokens of conditions

A condition is split into words at blanks. Parentheses, and a negation right before a tag or a
group, are words of their own: `spaceOperators` puts blanks around them first.
-/

namespace BlockTemplate

/-- An operand or an operator of a condition. -/
inductive Token where
  | operand (value : Argument)
  | operator (op : Operator)

/-- Put blanks around parentheses, and around a negation in front of a tag or a group. Quoted
    sections and tags, whose open braces `depth` counts, are kept as they are. -/
def spaceOperatorsFrom (quote : Option Char) (depth : Nat) : List Char → List Char
  | [] => []
  | c :: rest =>
    match quote, depth with
    -- a quoted section ends at its own quote only
    | some q, _ => c :: spaceOperatorsFrom (if c = q then none else some q) depth rest
    -- quotes have no meaning within a tag
    | none, depth + 1 =>
      let inner := if c = '{' then depth + 2 else if c = '}' then depth else depth + 1
      c :: spaceOperatorsFrom none inner rest
    | none, 0 =>
      if isQuote c then c :: spaceOperatorsFrom (some c) 0 rest
      else if c = '{' then c :: spaceOperatorsFrom none 1 rest
      else if c = '(' ∨ c = ')' then ' ' :: c :: ' ' :: spaceOperatorsFrom none 0 rest
      else if c = '!' ∧ (rest.head? = some '{' ∨ rest.head? = some '(') then
        ' ' :: c :: ' ' :: spaceOperatorsFrom none 0 rest
      else c :: spaceOperatorsFrom none 0 rest

/-- The condition with blanks around parentheses and negations. -/
def spaceOperators (s : List Char) : List Char := spaceOperatorsFrom none 0 s

/-- Blanks and line breaks separate the words of a condition. -/
def isConditionDelimiter (c : Char) : Bool := c == ' ' || c == '\t' || c == '\n' || c == '\r'

namespace Token

/-- The token that a word denotes: an operator if it is written so, else an operand. -/
def ofWord (word : List Char) : Token :=
  match Operator.ofSymbol? (String.ofList word) with
  | some op => .operator op
  | none => .operand (Argument.parse word)

/-- The tokens of a condition in their order. -/
def scan (condition : List Char) : List Token :=
  (words isConditionDelimiter .keep (spaceOperators condition)).map ofWord

/-- An operand as diagnostics show it. -/
def operandSource : Argument → String
  | .reference target => target.toSource
  | .text chunks => "'" ++ chunksSource chunks ++ "'"
  | .literal .null => "null"
  | .literal (.bool b) => if b then "true" else "false"
  | .literal (.number n) => n.literal
  | .literal (.text s) => "'" ++ s ++ "'"
  | .literal v => v.toText

/-- The token as diagnostics show it. -/
def toSource : Token → String
  | .operator op => op.symbol
  | .operand value => operandSource value

end Token

end BlockTemplate
