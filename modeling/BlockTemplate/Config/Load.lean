import BlockTemplate.Config.Read
import BlockTemplate.Directory.Basic
import BlockTemplate.Yaml.Document

/-!
# Configuration files

Configurations and variables are loaded from YAML files, which hold a mapping. Whatever counts as
empty does for an empty mapping.
-/

namespace BlockTemplate

/-- Whether a document has no content: null, false, zero, or something without elements. -/
def Value.isVacant : Value → Bool
  | .null => true
  | .bool b => !b
  | .number n => n.isZero
  | .text s => s.isEmpty
  | .sequence _ items => items.isEmpty
  | .mapping _ entries => entries.isEmpty
  | .object .. => false

/-- The entries of the mapping in a file. -/
def mappingIn (missing notMapping : Path → ConfigError) (path : Path) (d : Directory) :
    Except ConfigError (List (Key × Value)) := do
  match ← (d.seek path).mapError .file with
  | none => throw (missing path)
  | some (content, _) =>
    let source ← (decodeTextFile content).mapError (.file ∘ .encoding)
    match Yaml.parse source with
    | .error .malformed => throw (.notParsed path)
    | .error .nestedTooDeep => throw (.file .nestedTooDeep)
    | .error (.number cause) => throw (.number cause)
    | .ok (.mapping _ entries) => return entries
    | .ok v => if v.isVacant then return [] else throw (notMapping path)

/-- Load a configuration and apply the overrides in the environment. The paths in the file are seen
    from its folder. Without a file it is the standard configuration that is overridden. -/
def Config.load (path : Option Path) (environment : Environment) (d : Directory) :
    Except ConfigError Config := do
  let loaded ← match path with
    | none => pure {}
    | some path =>
      Config.ofEntries (← mappingIn .fileNotFound .notMapping path d) (some path.parent)
  return loaded.withEnvironment environment

/-- Load variables. -/
def loadVariables (path : Path) (d : Directory) : Except ConfigError (List (Key × Value)) :=
  mappingIn .varsFileNotFound .varsNotMapping path d

end BlockTemplate
