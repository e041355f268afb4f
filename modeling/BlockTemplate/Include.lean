import BlockTemplate.Config.Basic
import BlockTemplate.Error
import BlockTemplate.FileError
import BlockTemplate.Reference.Resolve

/-!
# Includes

A directive `FILE "path"` in braces is replaced before a template is compiled: by the text of the
file, its own directives replaced, if the path ends in `.tpl` and there is such a file, and by the
path otherwise. Tags in the path are resolved against the host globals.
-/

namespace BlockTemplate

/-- The sources that a template can include: the text of a file, if there is such a file. -/
abbrev Sources := Path → Except FileError (Option (List Char))

/-- Why a directive cannot be replaced. -/
inductive IncludeError where
  | compile (cause : CompileError)
  | render (cause : RenderError)
  | file (cause : FileError)
deriving DecidableEq, Repr

/-- An include directive: its source text, and the path between its quotes. -/
structure Directive where
  source : List Char
  path : List Char
deriving DecidableEq, Repr

/-- The path up to a quote and a closing brace, on one line and not empty, and what follows. -/
def quotedPath? (quote : Char) : List Char → Option (List Char × List Char)
  | [] => none
  | c :: rest =>
    if c = '\n' then none
    else match afterPattern? [quote, '}'] rest with
      | some after => some ([c], after)
      | none => (quotedPath? quote rest).map fun (path, after) => (c :: path, after)

/-- The directive at the start of a text, and what follows it. -/
def directive? (s : List Char) : Option (Directive × List Char) := do
  let rest ← afterPattern? ['{', 'F', 'I', 'L', 'E'] s
  if !(rest.head?.map isBlank).getD false then none
  else match rest.dropWhile isBlank with
    | quote :: inner =>
      if isQuote quote then
        let (path, after) ← quotedPath? quote inner
        return (⟨s.take (s.length - after.length), path⟩, after)
      else none
    | [] => none

/-- The current directory when there is no other root. -/
def Config.includeFolder (c : Config) (workingDir : Path) : Path := c.includeRoot.getD workingDir

/-- The context in which the paths of directives are rendered: the globals are its variables,
    too. -/
def includeContext (config : Config) (callbacks : Registry) : Context where
  vars := config.globals
  callbacks
  globals := .mapping .globals config.globals

/-- What includes are expanded with. -/
structure Includer where
  folder : Path
  context : Context
  sources : Sources

/-- Whether a path can be that of a template. -/
def isTemplateName (name : String) : Bool :=
  endsWith ['.', 't', 'p', 'l'] (lowerText name).toList

/-- The text of the template that a directive names, if there is one. -/
def Includer.source (i : Includer) (name : String) : Except FileError (Option (List Char)) :=
  if isTemplateName name then i.sources (i.folder.join (Path.ofString name)) else .ok none

/-- Replace the directives in a text, `levels` of them deep. -/
def Includer.expand (i : Includer) (levels : Nat) (code : List Char) :
    Except IncludeError (List Char) := do
  let parts ← (cutPieces directive? code).mapM fun
    | .literal chars => pure chars
    | .found directive =>
      -- only a directive that is reached can be too deep
      match levels with
      | 0 => throw (.compile (.includesTooDeep (String.ofList directive.source)))
      | levels + 1 => do
        let name ← (renderEmbedded i.context (String.ofList directive.path)).mapError .render
        match ← (i.source name).mapError .file with
        | none => pure name.toList
        | some source => i.expand levels source
  return parts.flatten

/-- Replace all directives in the text of a template. -/
def expandIncludes (config : Config) (callbacks : Registry) (workingDir : Path)
    (sources : Sources) (code : List Char) : Except IncludeError (List Char) :=
  Includer.expand ⟨config.includeFolder workingDir, includeContext config callbacks, sources⟩
    maxIncludeDepth code

end BlockTemplate
