import BlockTemplate.Path
import BlockTemplate.Value.Basic

/-!
# Engine configuration

The switches that all sessions of an engine share.
-/

namespace BlockTemplate

/-- The configuration of an engine. -/
structure Config where
  /-- store compiled templates and use them again -/
  cache : Bool := false
  /-- the folder of the stored templates, which are in a folder of their own in it -/
  cacheDir : Path := Path.ofString ".xtpl-cache"
  /-- clean up HTML before compiling -/
  cleanup : Bool := false
  /-- record the variables at the first parse of each block -/
  debug : Bool := false
  /-- show the record in place of a block -/
  debugOutput : Bool := false
  /-- the folder of relative includes; the current directory if there is none -/
  includeRoot : Option Path := none
  /-- the data behind the tag of the host globals -/
  globals : List (Key × Value) := []
deriving Inhabited

/-- The folder of the stored templates. -/
def Config.templatesDir (c : Config) : Path := c.cacheDir.child "templates"

end BlockTemplate
