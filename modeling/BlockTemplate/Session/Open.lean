import BlockTemplate.Digest.Sha1
import BlockTemplate.Include
import BlockTemplate.Session.Basic
import BlockTemplate.Template.Source

/-!
# Opening templates

A template is opened from its text: includes are expanded, the text is cleaned up if that is asked
for, and then compiled.
-/

namespace BlockTemplate

/-- Why a template cannot be opened. -/
inductive OpenError where
  | missingFile (path : Path)
  | compile (cause : CompileError)
  | nesting (cause : NestingError)
  | render (cause : RenderError)
  | file (cause : FileError)
  | unwritableCache (directory : Path)
deriving DecidableEq, Repr

/-- The message of an error while opening. -/
def OpenError.message : OpenError → String
  | .missingFile path => "Template file not found: " ++ path.toString
  | .compile cause => cause.message
  | .nesting cause => cause.message
  | .render cause => cause.message
  | .file cause => cause.message
  | .unwritableCache directory => "Your \"" ++ directory.toString ++ "\" is not writable"

/-- The error that opening ends with. -/
def IncludeError.toOpenError : IncludeError → OpenError
  | .compile cause => .compile cause
  | .render cause => .render cause
  | .file cause => .file cause

/-- The error that opening ends with. -/
def SourceError.toOpenError : SourceError → OpenError
  | .compile cause => .compile cause
  | .nesting cause => .nesting cause

/-- The text without a byte order mark at its start. -/
def withoutMark : List Char → List Char
  | '\uFEFF' :: rest => rest
  | s => s

/-- What templates are opened with: a configuration, callbacks, the sources of includes, and the
    current directory. -/
structure Engine where
  config : Config
  callbacks : Registry
  sources : Sources
  workingDir : Path

namespace Engine

/-- The source text as it is compiled. -/
def prepare (engine : Engine) (code : List Char) : Except OpenError (List Char) := do
  let expanded ← (expandIncludes engine.config engine.callbacks engine.workingDir engine.sources
    (withoutMark code)).mapError IncludeError.toOpenError
  return prepareSource engine.config.cleanup expanded

/-- The digest that stands for a source text. -/
def hashOf (code : List Char) : String := Sha1.ofText (String.ofList code)

/-- Open a template from its text. -/
def openText (engine : Engine) (path : Path) (code : List Char) : Except OpenError Session := do
  let prepared ← engine.prepare code
  let compiled ← (CompiledTemplate.ofSource prepared).mapError SourceError.toOpenError
  return .start path.name engine.config engine.callbacks (hashOf prepared) compiled

/-- Open a template from its source. -/
def openSource (engine : Engine) (path : Path) : Except OpenError Session := do
  match ← (engine.sources path).mapError .file with
  | none => throw (.missingFile path)
  | some source => engine.openText path source

end Engine

/-- Sources that are held in memory by their paths, the last one of a path. -/
def memorySources (files : List (String × String)) : Sources :=
  let known := ofEntries (files.map fun (name, text) =>
    ((Path.ofString name).toString, withoutMark text.toList))
  fun path => .ok (valueOf? path.toString known)

end BlockTemplate
