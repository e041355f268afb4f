import BlockTemplate.Callback.Default
import BlockTemplate.CommandLine.Assignment
import BlockTemplate.CommandLine.Command
import BlockTemplate.Config.Load
import BlockTemplate.Session.Files

/-!
# Running commands

A command reads and changes a directory and ends with what it prints, or with an error. Errors that
the user can mend are told in a line of their own.
-/

namespace BlockTemplate.CommandLine

/-- Why a command has no result. -/
inductive CommandError where
  | assignment (cause : AssignmentError)
  | config (cause : ConfigError)
  | opening (cause : OpenError)
  | session (cause : SessionError)
  | snapshot (cause : Cache.SnapshotError)
deriving DecidableEq, Repr

/-- The message of an error. -/
def CommandError.message : CommandError → String
  | assignment cause => cause.message
  | config cause => cause.message
  | opening cause => cause.message
  | session cause => cause.message
  | snapshot cause => cause.message

/-- Whether an error while rendering is one of a wrong value, rather than of a computation or a
    callback. -/
def isWrongValue : RenderError → Bool
  | .arithmetic .notANumberToInteger | .arithmetic (.unreadable _) | .arithmetic .unwritable => true
  | _ => false

/-- Whether an error of a file is one of a wrong value, rather than one that the system reports. -/
def isWrongContent : FileError → Bool
  | .encoding _ | .zeroInPath => true
  | .nameTooLong _ | .nestedTooDeep => false

/-- Whether the error is told in a line of its own. -/
def CommandError.isTold : CommandError → Bool
  | assignment _ => true
  | config (.file cause) => isWrongContent cause
  | config cause => cause != .mixedKeys
  | opening (.render cause) => isWrongValue cause
  | opening (.file cause) => isWrongContent cause
  | opening (.nesting _) => false
  | opening _ => true
  | session (.render cause) => isWrongValue cause
  | session (.notABlock ..) => false
  | snapshot _ => false

/-- What a command prints. -/
abbrev Outcome := Except CommandError String

/-- The configuration that a command runs with. -/
def configOf (environment : Environment) (file : Option Path) (d : Directory) :
    Except CommandError Config :=
  (Config.load file environment d).mapError .config

/-- Parse blocks one after the other. -/
def parseBlocks (s : Session) : List String → Except SessionError Session
  | [] => .ok s
  | block :: rest =>
    match s.parse block with
    | (.ok (), s) => parseBlocks s rest
    | (.error e, _) => .error e

/-- The text of a request in a session that has just been opened. -/
def RenderRequest.text (request : RenderRequest) (s : Session) (assignments : List (String × Value))
    (d : Directory) : Outcome := do
  let loaded ← match request.varsFile with
    | none => pure []
    | some file => (loadVariables file d).mapError .config
  let given := assignments.map fun (name, v) => (Key.text name, v)
  let assigned := (s.assignAll "" loaded).assignAll "" given
  let blocks :=
    if request.parsedBlocks.isEmpty then [request.shownBlock] else request.parsedBlocks
  let parsed ← (parseBlocks assigned blocks).mapError .session
  (parsed.out request.shownBlock).1.mapError .session

/-- Render a template. The assignments are read before anything else. -/
def RenderRequest.run (request : RenderRequest) (environment : Environment) (d : Directory) :
    Outcome × Directory :=
  match (readAssignments request.assignments).mapError .assignment with
  | .error e => (.error e, d)
  | .ok assignments =>
    match configOf environment request.configFile d with
    | .error e => (.error e, d)
    | .ok config =>
      let config := if request.noCache then { config with cache := false } else config
      match openFile config Registry.default request.template d with
      | (.error e, d) => (.error (.opening e), d)
      | (.ok opening, d) => (request.text opening.session assignments d, d)

/-- What is told about a template. -/
def templateReport (path : Path) (config : Config) (s : Session) : Except SessionError Json := do
  let tags ← s.tags
  return .object [("path", .text path.toString), ("source_hash", .text s.sourceHash),
    ("blocks", .array (s.blocks.map .text)), ("tags", .array (tags.map Key.toJson)),
    ("cache_enabled", .bool config.cache)]

/-- Tell about a template. -/
def inspect (path : Path) (configFile : Option Path) (environment : Environment) (d : Directory) :
    Outcome × Directory :=
  match configOf environment configFile d with
  | .error e => (.error e, d)
  | .ok config =>
    match openFile config Registry.default path d with
    | (.error e, d) => (.error (.opening e), d)
    | (.ok opening, d) =>
      (((templateReport path config opening.session).map Json.spacedText).mapError .session, d)

/-- What is told about a cache. -/
def cacheReport (state : Cache.Snapshot) (cleared : Bool) : Json :=
  .object [("enabled", .bool state.enabled), ("path", .text state.path.toString),
    ("exists", .bool state.isThere), ("size_bytes", .int state.sizeBytes),
    ("entries", .int state.entries), ("cleared", .bool cleared)]

/-- Tell about the cache, which is cleared first if that is asked for. -/
def tellCache (clear : Bool) (configFile : Option Path) (environment : Environment)
    (d : Directory) : Outcome × Directory :=
  match configOf environment configFile d with
  | .error e => (.error e, d)
  | .ok config =>
    let (cleared, d) := if clear then Cache.purge d config.templatesDir else (false, d)
    match Cache.snapshot d config with
    | .error e => (.error (.snapshot e), d)
    | .ok state => (.ok (cacheReport state cleared).spacedText, d)

/-- Run a command. -/
def Command.run (command : Command) (environment : Environment) (d : Directory) :
    Outcome × Directory :=
  match command with
  | .render request => request.run environment d
  | .inspect path configFile => CommandLine.inspect path configFile environment d
  | .cache clear configFile => tellCache clear configFile environment d

/-- The line that tells an error. -/
def CommandError.line (e : CommandError) : String :=
  String.ofList (trimEnd isBlank e.message.toList) ++ "\n"

/-- The exit code of a run. -/
def exitCode : Except Usage Outcome → Nat
  | .error .wrong => 2
  | .error _ => 0
  | .ok (.ok _) => 0
  | .ok (.error e) => if e.isTold then 2 else 1

end BlockTemplate.CommandLine
