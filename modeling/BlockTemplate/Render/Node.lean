import BlockTemplate.Condition.Evaluate
import BlockTemplate.Node.Basic

/-!
# Rendering nodes

Rendering a node gives a text and changes two things: loops bind their variables for good, and a
block hands out what it has accumulated and forgets it. Both changes stay when rendering fails later
on.
-/

namespace BlockTemplate

/-- The texts that blocks have accumulated, by the paths of the blocks. -/
abbrev Buffers := List (BlockPath × List String)

/-- What rendering reads and changes. -/
structure RenderState where
  vars : List (Key × Value)
  buffers : Buffers

namespace RenderState

/-- Bind a variable. -/
def bindVar (s : RenderState) (name : Key) (v : Value) : RenderState :=
  { s with vars := upsert name v s.vars }

/-- What the block at a path has accumulated. -/
def buffer (s : RenderState) (path : BlockPath) : List String :=
  (valueOf? path s.buffers).getD []

/-- Let the block at a path forget what it has accumulated. -/
def clear (s : RenderState) (path : BlockPath) : RenderState :=
  { s with buffers := removeKey path s.buffers }

/-- Add a text to what the block at a path has accumulated. -/
def accumulate (s : RenderState) (path : BlockPath) (text : String) : RenderState :=
  { s with buffers := upsert path (s.buffer path ++ [text]) s.buffers }

end RenderState

/-- What rendering cannot change: the callbacks and the host globals. -/
structure Host where
  callbacks : Registry
  globals : Value

/-- The context in which tags are resolved. -/
def RenderState.context (s : RenderState) (host : Host) : Context :=
  ⟨s.vars, host.callbacks, host.globals⟩

/-- A computation that renders something. Its changes stay when it fails. -/
abbrev Rendering := ExceptT RenderError (StateM RenderState)

/-- Compute something in the present context. -/
def inContext {α : Type} (host : Host) (f : Context → Except RenderError α) : Rendering α := do
  ExceptT.mk (pure (f ((← get).context host)))

/-- Hand out what the block at a path has accumulated. -/
def takeBuffer (path : BlockPath) : Rendering String := do
  let texts := (← get).buffer path
  modify (·.clear path)
  return String.join texts

/-- Bind a variable to a value. -/
def bindLabel (label : Label) (v : Value) : Rendering Unit := do
  match label.key? with
  | some name => modify (·.bindVar name v)
  | none => throw (.label .notAKey)

/-- Bind the variables of a loop to an entry. -/
def LoopHeader.bindEntry (header : LoopHeader) (entry : Key × Value) : Rendering Unit := do
  bindLabel header.valueVar entry.2
  match header.boundKey? with
  | some label => bindLabel label entry.1.toValue
  | none => return

/-- Render the body of a loop for each of its entries. -/
def renderEntries (header : LoopHeader) (body : Rendering String) :
    List (Key × Value) → Rendering String
  | [] => return ""
  | entry :: rest => do
    header.bindEntry entry
    return (← body) ++ (← renderEntries header body rest)

mutual

/-- Render the node at a path. -/
def Node.render (host : Host) (path : BlockPath) : Node → Rendering String
  | .data chunks => inContext host fun ctx => chunksText ctx chunks
  | .block _ _ => takeBuffer path
  | .loop header children => do
    let collection ← inContext host fun ctx => header.collection.resolve ctx
    if collection.breaksPromise then throw .notIterable
    match collection.loopEntries? with
    | none => return ""
    | some entries =>
      -- a loop without a body binds nothing
      if children.isEmpty then return ""
      else renderEntries header (renderChildren host path children) entries
  | .conditional condition ifChildren elseChildren => do
    if ← inContext host fun ctx => condition.holds ctx then
      renderChildren host (path ++ [.int 0]) ifChildren
    else renderChildren host (path ++ [.int 1]) elseChildren

/-- Render children one after the other. -/
def renderChildren (host : Host) (path : BlockPath) : List (Key × Node) → Rendering String
  | [] => return ""
  | (key, node) :: rest => do
    return (← node.render host (path ++ [key])) ++ (← renderChildren host path rest)

end

/-- Render the children of the block at a path, and accumulate the text there. -/
def parseBlock (host : Host) (path : BlockPath) (children : Children) : Rendering Unit := do
  let text ← renderChildren host path children
  modify (·.accumulate path text)

end BlockTemplate
