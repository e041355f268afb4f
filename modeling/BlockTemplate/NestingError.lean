/-!
# Texts that nest too deep

Tags stand within tags, references within the arguments of callbacks, and constructs within
constructs. Of each kind only so many can be open at once.
-/

namespace BlockTemplate

/-- What is nested too deep in a text. -/
inductive NestingError where
  | tags
  | references
  | constructs
deriving DecidableEq, Repr

/-- The message of the error. -/
def NestingError.message : NestingError → String
  | tags => "Tags are nested too deep"
  | references => "References are nested too deep"
  | constructs => "Constructs are nested too deep"

end BlockTemplate
