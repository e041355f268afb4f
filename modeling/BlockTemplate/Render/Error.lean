import BlockTemplate.Callback.Basic
import BlockTemplate.Label
import BlockTemplate.Number.Arithmetic

/-!
# Errors while rendering

Missing data never is an error. Rendering fails when a callback does, when a condition computes with
what is no number or has no result, when a loop runs over an object that does not keep its promise,
or when a damaged template needs a text that is not there.
-/

namespace BlockTemplate

/-- Why rendering stopped. -/
inductive RenderError where
  | arithmetic (cause : ArithmeticError)
  /-- a container as an operand of an arithmetic operator -/
  | unsupportedOperand (typeName : String)
  | callback (cause : CallbackError)
  /-- an object that claims to be iterable and is not -/
  | notIterable
  | label (cause : LabelError)
deriving DecidableEq, Repr

/-- The message of an error about a label. -/
def LabelError.message : LabelError → String
  | .notAKey => "a list or a record cannot be a key"
  | .notAText => "something that is no text in the place of a text"
  | .notAnAttribute => "something that is no text in the place of an attribute"
  | .noOrder => "keys of several types have no order"

/-- The message of an error while rendering. -/
def RenderError.message : RenderError → String
  | .arithmetic cause => cause.message
  | .unsupportedOperand typeName => "Unsupported operand type: " ++ typeName
  | .callback .wrongArguments => "wrong arguments"
  | .callback (.failed message) => message
  | .notIterable => "the object cannot be iterated"
  | .label cause => cause.message

end BlockTemplate
