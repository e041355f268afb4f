import BlockTemplate.Path
import BlockTemplate.Text.Utf8

/-!
# Errors of files

Why a file cannot be used. That there is none is not among the reasons: what it means is up to
whoever looks for the file.
-/

namespace BlockTemplate

/-- Why a file cannot be used. -/
inductive FileError where
  /-- its bytes are no text -/
  | encoding (cause : EncodingError)
  /-- the path, or a name on the way, is longer than any path or name can be -/
  | nameTooLong (path : Path)
  /-- the path holds the character zero, which no name can hold -/
  | zeroInPath
  /-- what it holds is nested deeper than can be read -/
  | nestedTooDeep
deriving DecidableEq, Repr

/-- The message of an error of a file. -/
def FileError.message : FileError → String
  | encoding cause => cause.message
  | nameTooLong path => "File name too long: " ++ path.toString
  | zeroInPath => "embedded null byte"
  | nestedTooDeep => "The content of the file is nested too deep"

end BlockTemplate
