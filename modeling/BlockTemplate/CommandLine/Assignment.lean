import BlockTemplate.OrderedMap
import BlockTemplate.Reference.Parse

/-!
# Assignments on the command line

An assignment is a name, an equals sign and a value, which is written like an argument of a
callback. What would be a reference there is a plain text here.
-/

namespace BlockTemplate.CommandLine

/-- What is wrong with an assignment. -/
inductive AssignmentError where
  | noEqualsSign (item : String)
  | noName (item : String)
deriving DecidableEq, Repr

/-- The message of an error in an assignment. -/
def AssignmentError.message : AssignmentError → String
  | noEqualsSign item => "Invalid assignment '" ++ item ++ "'. Expected NAME=VALUE"
  | noName item => "Invalid assignment '" ++ item ++ "'. Empty name"

/-- The value that a text denotes. -/
def valueOfText (text : List Char) : Value :=
  match Argument.parse text with
  | .literal v => v
  | .text chunks => .text (chunksSource chunks)
  | .reference _ => .text (String.ofList text)

/-- The name and the value of an assignment. -/
def readAssignment (item : String) : Except AssignmentError (String × Value) :=
  let name := item.toList.takeWhile (· != '=')
  match item.toList.dropWhile (· != '=') with
  | [] => .error (.noEqualsSign item)
  | _ :: text =>
    if (trimBlank name).isEmpty then .error (.noName item)
    else .ok (String.ofList (trimBlank name), valueOfText text)

/-- The names and values of assignments. Of a name that is given several times the last value
    counts, at the first place. -/
def readAssignments (items : List String) : Except AssignmentError (List (String × Value)) := do
  return ofEntries (← items.mapM readAssignment)

end BlockTemplate.CommandLine
