import BlockTemplate.Config.Basic
import BlockTemplate.Render.Node
import BlockTemplate.Session.DebugLog

/-!
# Sessions

A session is a compiled template with variables. Parsing a block renders it and adds the text to
what the block has accumulated; fetching the text of a block hands that out. Blocks within a block
have to be parsed before it.
-/

namespace BlockTemplate

/-- A template in use. `numbered` counts the mappings that dotted assignments have created. -/
structure Session where
  fileName : String
  config : Config
  callbacks : Registry
  sourceHash : String
  compiled : CompiledTemplate
  state : RenderState
  log : DebugLog
  numbered : Nat

/-- The block that is shown unless told otherwise. -/
def defaultBlock : String := "MAIN"

/-- Why an operation of a session stopped. -/
inductive SessionError where
  | render (cause : RenderError)
  /-- an operation of blocks on a place that is no block -/
  | notABlock (operation kind name : String)
deriving DecidableEq, Repr

/-- The message of an error in a session. -/
def SessionError.message : SessionError → String
  | .render cause => cause.message
  | .notABlock operation kind name =>
    "Calling " ++ operation ++ "() on " ++ kind ++ " at '" ++ name ++ "'"

namespace Session

/-- A new session of a compiled template. -/
def start (fileName : String) (config : Config) (callbacks : Registry) (sourceHash : String)
    (compiled : CompiledTemplate) : Session :=
  { fileName, config, callbacks, sourceHash, compiled, state := ⟨[], []⟩, log := .empty,
    numbered := 0 }

def host (s : Session) : Host := ⟨s.callbacks, .mapping .globals s.config.globals⟩

/-- Give every occurrence of a shared mapping in the session the given entries. -/
def share (s : Session) (origin : Origin) (contents : List (Key × Value)) : Session :=
  { s with
    state := { s.state with vars := shareEntries origin contents s.state.vars }
    config := { s.config with globals := shareEntries origin contents s.config.globals }
    log := s.log.share origin contents }

/-- Set the value at the end of a path that starts with a variable. Every occurrence of the mapping
    that is changed sees the change. -/
def assignPath (s : Session) (name : String) (keys : List String) (v : Value) : Session :=
  let vars := setPathIn s.numbered v name keys s.state.vars
  let changed : Session :=
    { s with state := { s.state with vars }, numbered := s.numbered + keys.length }
  -- the variables are the root mapping; only mappings below it can be shared
  match changedMapping? s.numbered v name keys s.state.vars with
  | some (origin, contents) => changed.share origin contents
  | none => changed

/-- Assign a value to a name. A dotted name is a path into the variables. -/
def assign (s : Session) (name : String) (v : Value) : Session :=
  match (splitAtChar '.' name.toList).map String.ofList with
  | first :: keys => s.assignPath first keys v
  | [] => s

/-- Assign each value of a mapping to its key, with some text in front of it. -/
def assignAll (s : Session) (front : String) (entries : List (Key × Value)) : Session :=
  entries.foldl (fun s (key, v) => s.assign (front ++ key.plain) v) s

/-- The value at the end of a path that starts with a variable. -/
def get (s : Session) (name : String) : Except SessionError Value :=
  ((Value.mapping .temporary s.state.vars).getPath
    ((splitAtChar '.' name.toList).map String.ofList)).mapError (.render ∘ .arithmetic)

/-- Run a computation that renders something. -/
def run {α : Type} (s : Session) (rendering : Rendering α) : Except SessionError α × Session :=
  let (outcome, state) := rendering.run.run s.state
  (outcome.mapError .render, { s with state })

/-- Record the variables for a block, if debugging is on. -/
def recorded (s : Session) (block : String) : Session :=
  if s.config.debug then { s with log := s.log.record s.fileName block s.state.vars } else s

/-- The place of a block, if there is one of the name. -/
def locate (s : Session) (block : String) : Except SessionError (Option (BlockPath × Place)) :=
  (s.compiled.locate block).mapError (.render ∘ .label)

/-- Parse a block. There may be none of the name. -/
def parse (s : Session) (block : String) : Except SessionError Unit × Session :=
  match s.locate block with
  | .error e => (.error e, s)
  | .ok none => (.ok (), s.recorded block)
  | .ok (some (path, .node (.block _ children))) =>
    match s.run (parseBlock s.host path children) with
    -- a failed parse is not recorded
    | (.ok (), s) => (.ok (), s.recorded block)
    | (.error e, s) => (.error e, s)
  | .ok (some (_, place)) => (.error (.notABlock "parse" place.kindName block), s)

/-- Let a block forget what it has accumulated. -/
def reset (s : Session) (block : String) : Except SessionError Session := do
  match ← s.locate block with
  | none => return s
  | some (path, .node (.block _ _)) => return { s with state := s.state.clear path }
  | some (_, place) => throw (.notABlock "reset" place.kindName block)

/-- Hand out what a block has accumulated. -/
def text (s : Session) (block : String) : Except SessionError String × Session :=
  match s.locate block with
  | .error e => (.error e, s)
  | .ok (some (path, .node node)) => s.run (node.render s.host path)
  | .ok _ => (.ok "", s)

/-- What is shown for a block: its text, or the debug report if that is asked for. -/
def out (s : Session) (block : String) : Except SessionError String × Session :=
  if s.config.debug && s.config.debugOutput then (.ok (s.log.report s.fileName), s)
  else s.text block

def hasBlock (s : Session) (name : String) : Bool := (valueOf? name s.compiled.index).isSome

def hasTag (s : Session) (name : String) : Bool := s.compiled.tags.contains (.text name)

/-- The names of the variables in literal text in order. -/
def tags (s : Session) : Except SessionError (List Key) :=
  s.compiled.sortedTags.mapError (.render ∘ .label)

/-- The template as it is written. -/
def source (s : Session) : Except SessionError String :=
  if s.compiled.hasSource then .ok s.compiled.toSource else .error (.render (.label .notAText))

/-- The full names of all blocks in the order of the text. -/
def blocks (s : Session) : List String := s.compiled.index.map (·.1)

end Session

end BlockTemplate
