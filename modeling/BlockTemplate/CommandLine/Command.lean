import BlockTemplate.CommandLine.Option
import BlockTemplate.Path
import BlockTemplate.Session.Basic

/-!
# Commands

A command line names a command, with options of all commands before and options of its own behind
the name. Two of the commands are about a template, whose file is the plain word behind the name.
-/

namespace BlockTemplate.CommandLine

/-- What is to be rendered, and how. -/
structure RenderRequest where
  template : Path
  varsFile : Option Path
  /-- assignments as they are written -/
  assignments : List String
  /-- blocks to be parsed; if there are none, it is the block that is shown -/
  parsedBlocks : List String
  shownBlock : String
  noCache : Bool
  configFile : Option Path
deriving DecidableEq, Repr

/-- What to do: render a template, tell about a template, or tell about the cache. -/
inductive Command where
  | render (request : RenderRequest)
  | inspect (template : Path) (configFile : Option Path)
  | cache (clear : Bool) (configFile : Option Path)
deriving DecidableEq, Repr

/-- The names of the commands. -/
inductive CommandName where
  | render | inspect | cache
deriving DecidableEq, Repr

namespace CommandName

/-- The command of a name. -/
def ofString? : String → Option CommandName
  | "render" => some render
  | "inspect" => some inspect
  | "cache" => some cache
  | _ => none

/-- The options of a command. -/
def options : CommandName → List OptionName
  | render => [.help, .varsFile, .assignment, .parsedBlock, .shownBlock, .noCache, .configFile]
  | inspect => [.help, .configFile]
  | cache => [.help, .clear, .configFile]

/-- Whether the command is about a template. -/
def needsTemplate : CommandName → Bool
  | cache => false
  | _ => true

end CommandName

/-- The options before the name of the command. -/
def commonOptions : List OptionName := [.help, .version, .logLevel]

/-- What has been read of the words of a command. -/
structure Reading where
  template : Option String
  /-- the options with their values, in the order of the words -/
  options : List (OptionName × String)
  /-- whether there are words that mean nothing -/
  hasLeftover : Bool
deriving DecidableEq, Repr

namespace Reading

/-- The values of an option. -/
def values (r : Reading) (name : OptionName) : List String :=
  (r.options.filter fun (other, _) => other == name).map (·.2)

/-- The value of an option, which is the last one if there are several. -/
def value? (r : Reading) (name : OptionName) : Option String := (r.values name).getLast?

/-- The file that an option names. -/
def path? (r : Reading) (name : OptionName) : Option Path := (r.value? name).map Path.ofString

/-- Whether an option without a value is given. -/
def has (r : Reading) (name : OptionName) : Bool := (r.value? name).isSome

def withOption (r : Reading) (name : OptionName) (value : String) : Reading :=
  { r with options := (name, value) :: r.options }

def withLeftover (r : Reading) : Reading := { r with hasLeftover := true }

end Reading

/-- How a command line ends with an option, if the option is its end. -/
def OptionName.usage? : OptionName → Option Usage
  | .help => some .help
  | .version => some .version
  | _ => none

/-- Read the words of a command. `free` tells that the place of the template is still to be
    filled, and `filled` that it has been by the word before. The separator has to be beside the
    template. -/
def readWords (free filled : Bool) : List Word → Except Usage Reading
  | [] => .ok ⟨none, [], false⟩
  | .plain text :: rest =>
    -- the first plain word is the template, every other one is too much
    if free then do return { ← readWords false true rest with template := some text }
    else do return (← readWords false false rest).withLeftover
  | .separator :: rest =>
    if filled || free then readWords free false rest
    else do return (← readWords false false rest).withLeftover
  | .option name (some value) :: rest => do
    return (← readWords free false rest).withOption name value
  | [.option name none] =>
    if name.takesValue then .error .wrong
    else match name.usage? with
      | some usage => .error usage
      | none => .ok ⟨none, [(name, "")], false⟩
  | .option name none :: next :: rest =>
    if name.takesValue then
      -- the value is the next word, which must not look like an option
      match next with
      | .plain value => do return (← readWords free false rest).withOption name value
      | _ => .error .wrong
    else match name.usage? with
      | some usage => .error usage
      | none => do return (← readWords free false (next :: rest)).withOption name ""
  | .unknown :: rest => do return (← readWords free false rest).withLeftover
  | .malformed :: _ => .error .wrong

/-- The command that has been read. -/
def Command.ofReading (name : CommandName) (r : Reading) : Option Command :=
  if r.hasLeftover then none
  else
    match name with
    | .cache => some (.cache (r.has .clear) (r.path? .configFile))
    | .inspect => r.template.map fun file => .inspect (Path.ofString file) (r.path? .configFile)
    | .render => r.template.map fun file =>
      .render {
        template := Path.ofString file
        varsFile := r.path? .varsFile
        assignments := r.values .assignment
        parsedBlocks := r.values .parsedBlock
        shownBlock := (r.value? .shownBlock).getD defaultBlock
        noCache := r.has .noCache
        configFile := r.path? .configFile }

/-- Read a command behind its name. -/
def readCommand (name : String) (words : List String) : Except Usage Command := do
  match CommandName.ofString? name with
  | none => throw .wrong
  | some name =>
    let reading ← readWords name.needsTemplate false (← classifyAll name.options words)
    match Command.ofReading name reading with
    | some command => return command
    | none => throw .wrong

/-- Read the words of a whole command line, which are given with what they are as common options.
    What is unknown before the command makes the line wrong, but not before the command has been
    read. -/
def readLine (words : List String) (common : List Word) : Except Usage Command :=
  match words, common with
  -- the first plain word names the command, which reads all that follows by its own options
  | name :: rest, .plain _ :: _ => readCommand name rest
  | _ :: rest, .unknown :: common => do
    let _ ← readLine rest common
    throw .wrong
  | _ :: rest, .option name (some _) :: common =>
    if name.takesValue then readLine rest common else .error .wrong
  | _ :: _ :: rest, .option name none :: .plain _ :: common =>
    match name.usage? with
    | some usage => .error usage
    | none => readLine rest common
  | _, .option name none :: _ => .error (name.usage?.getD .wrong)
  | _, _ => .error .wrong

/-- The command that a command line asks for. -/
def Command.ofWords (words : List String) : Except Usage Command := do
  readLine words (← classifyAll commonOptions words)

end BlockTemplate.CommandLine
