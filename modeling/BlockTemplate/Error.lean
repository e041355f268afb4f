/-!
# Errors in templates

What can be wrong with the text of a template. Each error names the construct that it is about by
its source text.
-/

namespace BlockTemplate

/-- Directives nested deeper than this are not expanded. -/
def maxIncludeDepth : Nat := 16

/-- Why a template cannot be compiled. -/
inductive CompileError where
  | unbalancedParentheses (condition : String)
  | emptyCondition (marker : String)
  | emptyLoopHeader (marker : String)
  | malformedLoopHeader (marker : String)
  | loopNotClosed (marker : String)
  | conditionNotClosed (marker : String)
  | duplicateElse (marker : String)
  | includesTooDeep (directive : String)
deriving DecidableEq, Repr

namespace CompileError

/-- The source text of the construct that is wrong. -/
def construct : CompileError → String
  | unbalancedParentheses s | emptyCondition s | emptyLoopHeader s | malformedLoopHeader s
  | loopNotClosed s | conditionNotClosed s | duplicateElse s | includesTooDeep s => s

/-- What is wrong with the construct. -/
def complaint : CompileError → String
  | unbalancedParentheses _ => "Unbalanced parentheses in condition"
  | emptyCondition _ => "Empty IF condition"
  | emptyLoopHeader _ => "Empty FOR header"
  | malformedLoopHeader _ => "Malformed FOR header"
  | loopNotClosed _ => "Loop not closed"
  | conditionNotClosed _ => "Logical block not closed"
  | duplicateElse _ => "Duplicate ELSE in logical block"
  | includesTooDeep _ => "Includes nested deeper than " ++ toString maxIncludeDepth ++ " levels"

/-- The message of the error. -/
def message (e : CompileError) : String :=
  if e.construct = "" then e.complaint else e.complaint ++ ": " ++ e.construct

end CompileError

end BlockTemplate
