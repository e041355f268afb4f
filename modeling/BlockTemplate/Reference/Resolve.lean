import BlockTemplate.Callback.Dump
import BlockTemplate.Reference.Parse
import BlockTemplate.Render.Error
import BlockTemplate.Value.Path

/-!
# Resolving references

A reference resolves to the value of its name, followed down its path and passed through its
callbacks. What is not defined resolves to null. A callback that is not registered makes the tag
resolve to its own source text.
-/

namespace BlockTemplate

/-- What tags are resolved against: the variables, the callbacks and the host globals, which are one
    mapping. -/
structure Context where
  vars : List (Key × Value)
  callbacks : Registry
  globals : Value

/-- The value of a name: that of a variable, or all host globals together. -/
def Context.valueOf (ctx : Context) (name : Label) : Except LabelError Value := do
  let key ← name.toKey
  if key == .text globalsName then return ctx.globals
  return (valueOf? key ctx.vars).getD .null

/-- One step of a path in a tag. Only a mapping has keys that are no texts. -/
def Value.step (label : Label) (v : Value) : Except RenderError Value :=
  match label, v with
  | .text key, v => (v.item key).mapError .arithmetic
  | label, .mapping _ entries => do
    let key ← label.toKey.mapError .label
    match valueOf? key entries with
    | some v => return v
    | none => throw (.label .notAText)
  | _, .sequence .. => .error (.label .notAText)
  | _, .object .. => .error (.label .notAnAttribute)
  | _, _ => .ok .null

/-- The value that a tag names, before its callbacks. -/
def Reference.target (ctx : Context) (tag : Reference) : Except RenderError Value := do
  let start ← (ctx.valueOf tag.name).mapError .label
  let v ← tag.keys.foldlM (fun v label => v.step label) start
  -- a path that leads nowhere has to be a path
  if (v matches .null) && !tag.keys.isEmpty && !tag.hasPath then throw (.label .notAText)
  return v

/-- What a tag resolves to in place of a callback that is not registered. -/
def Reference.unresolved (tag : Reference) : Except RenderError Value :=
  if tag.hasSource then .ok (.text tag.toSource) else .error (.label .notAText)

/-- The callback of a name. -/
def Context.callback? (ctx : Context) (name : Label) : Except RenderError (Option Callback) := do
  let key ← name.toKey.mapError .label
  return key.text?.bind ctx.callbacks.get?

/-- The name of the listing, which is built in. -/
def dumpName : String := "dump"

/-- Stands in for the running value mark in the text of an embedded tag. -/
def markPlaceholder : List Char := "~~==\x7bthis-placeholder\x7d==~~".toList

/-- Replace the mark in the text of an embedded tag, so that it survives there. -/
def hideMark (s : List Char) : List Char :=
  replaceAll runningValueMark.toList markPlaceholder s

/-- Put the running value in place of each mark, and then bring hidden marks back. -/
def insertRunning (running : Value) (s : List Char) : List Char :=
  replaceAll markPlaceholder runningValueMark.toList
    (replaceAll runningValueMark.toList running.toText.toList s)

/-- Whether a text argument is the mark of the running value and nothing else. -/
def isRunningMark : List Chunk → Bool
  | [.literal text] => text == runningValueMark
  | _ => false

/-- The outcome of a callback as one of rendering. -/
def runCallback (callback : Callback) (arguments : List Value) : Except RenderError Value :=
  (callback arguments).mapError .callback

mutual

/-- The value of a reference. -/
def Reference.resolve (ctx : Context) : Reference → Except RenderError Value
  | .mk source name keys calls => do
    let tag := Reference.mk source name keys []
    resolveCalls ctx tag (← tag.target ctx) calls

/-- The value at the end of a chain of callbacks, which belongs to the tag `tag` and starts with
    `running`. -/
def resolveCalls (ctx : Context) (tag : Reference) (running : Value) :
    List Call → Except RenderError Value
  | [] => .ok running
  | .mk name none _ :: rest =>
    -- the host cannot replace the listing, and its path is that of the whole tag
    if name.text? == some dumpName then
      if tag.hasPath then resolveCalls ctx tag (.text (running.dump tag.path)) rest
      else .error (.label .notAText)
    else do
      match ← ctx.callback? name with
      | none => tag.unresolved
      | some callback => resolveCalls ctx tag (← runCallback callback [running]) rest
  | .mk name (some arguments) _ :: rest => do
    match ← ctx.callback? name with
    | none => tag.unresolved
    | some callback =>
      let values ← resolveArguments ctx running arguments
      resolveCalls ctx tag (← runCallback callback values) rest

def resolveArguments (ctx : Context) (running : Value) :
    List Argument → Except RenderError (List Value)
  | [] => .ok []
  | argument :: rest => do
    let value ← argument.resolve ctx running
    return value :: (← resolveArguments ctx running rest)

/-- The value of an argument. The mark of the running value alone passes a container as it is. -/
def Argument.resolve (ctx : Context) (running : Value) : Argument → Except RenderError Value
  | .literal value => .ok value
  | .reference target => target.resolve ctx
  | .text chunks =>
    -- anything but a container is passed by its text, as where the mark stands beside other text
    if isRunningMark chunks && running.isContainer then .ok running
    else do
      let text ← renderChunks ctx hideMark chunks
      return .text (String.ofList (insertRunning running text))

/-- The text of chunks, `onTag` applied to the texts of tags. -/
def renderChunks (ctx : Context) (onTag : List Char → List Char) :
    List Chunk → Except RenderError (List Char)
  | [] => .ok []
  | .literal text :: rest => do return text.toList ++ (← renderChunks ctx onTag rest)
  | .tag target :: rest => do
    let value ← target.resolve ctx
    return onTag value.toText.toList ++ (← renderChunks ctx onTag rest)
  | .other _ :: rest => renderChunks ctx onTag rest

end

/-- The text of chunks with the texts of the tags in them. All tags are resolved before it matters
    that a chunk is no text. -/
def chunksText (ctx : Context) (chunks : List Chunk) : Except RenderError String := do
  let text ← renderChunks ctx id chunks
  if chunks.any (· matches .other _) then throw (.label .notAText)
  return String.ofList text

/-- The value of an operand, which has no running value. -/
def Argument.operandValue (ctx : Context) : Argument → Except RenderError Value
  | .literal value => .ok value
  | .reference target => target.resolve ctx
  | .text chunks => do return .text (← chunksText ctx chunks)

/-- A plain text with the texts of its embedded tags. -/
def renderEmbedded (ctx : Context) (text : String) : Except RenderError String :=
  chunksText ctx (embeddedChunks text)

end BlockTemplate
