import BlockTemplate.Config.Basic
import BlockTemplate.FileError
import BlockTemplate.Label
import BlockTemplate.OrderedMap
import BlockTemplate.Text.CaseMap
import BlockTemplate.Value.Text

/-!
# Reading a configuration

A configuration is read from a mapping, whose keys and types are checked, and can then be overridden
from the environment. Of several errors the first one counts: unknown keys, then the switches, then
the paths, then the globals.
-/

namespace BlockTemplate

/-- What is wrong with a configuration. -/
inductive ConfigError where
  /-- keys that mean nothing, in order -/
  | unknownKeys (keys : List Key)
  /-- unknown keys of several types, which have no order -/
  | mixedKeys
  | notBool (key typeName : String)
  | notPath (key typeName : String)
  | globalsNotMapping (typeName : String)
  | fileNotFound (path : Path)
  | file (cause : FileError)
  /-- a number that cannot be read, or cannot be written -/
  | number (cause : ArithmeticError)
  | notParsed (path : Path)
  | notMapping (path : Path)
  | varsFileNotFound (path : Path)
  | varsNotMapping (path : Path)
deriving DecidableEq, Repr

/-- The message of a configuration error. -/
def ConfigError.message : ConfigError → String
  | unknownKeys keys =>
    "Unknown config key(s): [" ++ ", ".intercalate (keys.map Key.inMessage) ++ "]"
  | mixedKeys => "Unknown config keys of several types"
  | notBool key typeName => key ++ ": expected bool, got " ++ typeName
  | notPath key typeName => key ++ ": expected path string, got " ++ typeName
  | globalsNotMapping typeName => "globals: expected mapping, got " ++ typeName
  | file cause => cause.message
  | number cause => cause.message
  | fileNotFound path => "Config file not found: " ++ path.toString
  | notParsed path => "Failed to parse " ++ path.toString
  | notMapping path => "YAML must be a mapping: " ++ path.toString
  | varsFileNotFound path => "Variables file not found: " ++ path.toString
  | varsNotMapping path => "Variables file must contain a mapping: " ++ path.toString

/-- The keys of the switches. -/
def boolKeys : List String := ["cache", "cleanup", "debug", "debug_output"]

/-- The keys of the paths. -/
def pathKeys : List String := ["cache_dir", "include_root"]

/-- The key of the host globals. -/
def globalsKey : String := "globals"

def isKnownKey : Key → Bool
  | .text s => (boolKeys ++ pathKeys ++ [globalsKey]).contains s
  | _ => false

/-- Whether a key is an integer with too many digits to be written. -/
def Key.isUnwritable (key : Key) : Bool := key.number?.any Number.isUnwritable

/-- The error that unknown keys are. They are put in order and written into the message, and neither
    can be done with all keys. -/
def unknownKeysError (keys : List Key) : ConfigError :=
  match Key.sorted? keys with
  | some keys => if keys.any Key.isUnwritable then .number .unwritable else .unknownKeys keys
  | none => .mixedKeys

/-- A switch, if the mapping has it. -/
def switch? (raw : List (Key × Value)) (key : String) : Except ConfigError (Option Bool) :=
  match valueOf? (.text key) raw with
  | none => .ok none
  | some (.bool b) => .ok (some b)
  | some v => .error (.notBool key v.typeName)

/-- A path, if the mapping has it and it is not null; a relative one is seen from the base. -/
def path? (raw : List (Key × Value)) (base : Option Path) (key : String) :
    Except ConfigError (Option Path) :=
  match valueOf? (.text key) raw with
  | none | some .null => .ok none
  | some (.text s) =>
    let path := Path.ofString s
    .ok (some (match base with
      | some folder => folder.join path
      | none => path))
  | some v => .error (.notPath key v.typeName)

/-- The host globals in the mapping. The view of other host globals does not count as a mapping. -/
def globalsIn (raw : List (Key × Value)) : Except ConfigError (List (Key × Value)) :=
  match valueOf? (.text globalsKey) raw with
  | none | some .null => .ok []
  | some (.mapping origin entries) =>
    if origin = .globals then .error (.globalsNotMapping (Value.mapping origin entries).typeName)
    else .ok entries
  | some v => .error (.globalsNotMapping v.typeName)

/-- Read a configuration from a mapping. Relative paths are seen from the base folder, if there is
    one. -/
def Config.ofEntries (raw : List (Key × Value)) (base : Option Path) :
    Except ConfigError Config := do
  let unknown := (raw.map (·.1)).filter fun key => !isKnownKey key
  if !unknown.isEmpty then throw (unknownKeysError unknown)
  let standard : Config := {}
  let cache ← switch? raw "cache"
  let cleanup ← switch? raw "cleanup"
  let debug ← switch? raw "debug"
  let debugOutput ← switch? raw "debug_output"
  let cacheDir ← path? raw base "cache_dir"
  let includeRoot ← path? raw base "include_root"
  return {
    cache := cache.getD standard.cache
    cacheDir := cacheDir.getD standard.cacheDir
    cleanup := cleanup.getD standard.cleanup
    debug := debug.getD standard.debug
    debugOutput := debugOutput.getD standard.debugOutput
    includeRoot
    globals := ← globalsIn raw }

/-- Texts that turn a switch off, in lower case. -/
def offTexts : List String := ["0", "false", "no", "off", ""]

/-- Whether an environment variable turns its switch on. -/
def isOn (s : String) : Bool :=
  !offTexts.contains (lowerText (String.ofList (trimBlank s.toList)))

/-- The environment variables by their names. -/
abbrev Environment := List (String × String)

/-- The environment variable that turns the cache on or off. -/
def cacheVariable : String := "XTPL_CACHE"

/-- The environment variable that names the folder of the cache. -/
def cacheDirVariable : String := "XTPL_CACHE_DIR"

/-- The environment variable that turns debugging on or off. -/
def debugVariable : String := "XTPL_DEBUG"

/-- The configuration with the overrides in the environment. -/
def Config.withEnvironment (c : Config) (environment : Environment) : Config :=
  let cacheDir := match valueOf? cacheDirVariable environment with
    | some s => if s = "" then c.cacheDir else Path.ofString s
    | none => c.cacheDir
  { c with
    cache := ((valueOf? cacheVariable environment).map isOn).getD c.cache
    cacheDir
    debug := ((valueOf? debugVariable environment).map isOn).getD c.debug }

end BlockTemplate
