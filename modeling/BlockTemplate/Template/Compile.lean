import BlockTemplate.Markup.Cleanup
import BlockTemplate.Markup.Construct

/-!
# Compiling templates

A unit is the body of a block, a loop or a branch. Its text is cut at its constructs; what stands
between them becomes data, and their bodies are units of their own. At the root only blocks count,
and the text around them is dropped.
-/

namespace BlockTemplate

/-- The children of a unit in the order of the text, and the paths of the blocks in it. Of two
    blocks of one name both are in the list. -/
structure CompiledUnit where
  entries : List (Key × Node)
  index : List (String × BlockPath)

/-- The children of a unit by their keys: the last of two blocks of one name counts, at the place of
    the first. -/
def CompiledUnit.children (u : CompiledUnit) : Children := ofEntries u.entries

/-- The chunks of literal text. -/
def dataChunks (text : List Char) : List Chunk :=
  (tagPieces text).map fun
    | .literal chars => .literal (String.ofList chars)
    | .found body => .tag (Reference.parse body)

/-- Literal text as a child with the next number; no text is no child. -/
def dataEntries (number : Nat) (text : List Char) : List (Key × Node) :=
  if text.isEmpty then [] else [(.int number, .data (dataChunks text))]

/-- The part of a unit from a position on, where `number` is the next number for a child. -/
def compileFrom (code : List Char) (path : BlockPath) (lineStart : Bool) (pos number : Nat) :
    Except CompileError CompiledUnit :=
  match h : nextConstruct? code lineStart pos with
  | .error e => .error e
  | .ok none => .ok ⟨dataEntries number (code.drop pos), []⟩
  | .ok (some c) =>
    have advances := nextConstruct?_advances h
    have : code.length - c.stop < code.length - pos := by
      have := advances.1
      have := advances.2.1
      omega
    let before := dataEntries number (slice code pos c.start)
    let number := number + before.length
    match hk : c.kind with
    | .block name body => do
      have : body.code.length < code.length :=
        advances.2.2 body (by simp [hk, ConstructKind.bodies])
      let blockPath := path ++ [.text name]
      let inner ← compileFrom body.code blockPath body.lineStart 0 0
      -- blocks are keyed by their names and take no number
      let rest ← compileFrom code path lineStart c.stop number
      return ⟨before ++ (.text name, .block (.text name) inner.children) :: rest.entries,
        (fullName blockPath, blockPath) :: inner.index ++ rest.index⟩
    | .loop header body => do
      have : body.code.length < code.length :=
        advances.2.2 body (by simp [hk, ConstructKind.bodies])
      let inner ← compileFrom body.code (path ++ [.int number]) body.lineStart 0 0
      let rest ← compileFrom code path lineStart c.stop (number + 1)
      return ⟨before ++ (.int number, .loop header inner.children) :: rest.entries,
        inner.index ++ rest.index⟩
    | .conditional condition ifBody elseBody => do
      have : ifBody.code.length < code.length :=
        advances.2.2 ifBody (by simp [hk, ConstructKind.bodies])
      have : elseBody.code.length < code.length :=
        advances.2.2 elseBody (by simp [hk, ConstructKind.bodies])
      -- the branches are told apart by one more step of the path
      let inner := path ++ [.int number]
      let ifPart ← compileFrom ifBody.code (inner ++ [.int 0]) ifBody.lineStart 0 0
      let elsePart ← compileFrom elseBody.code (inner ++ [.int 1]) elseBody.lineStart 0 0
      let rest ← compileFrom code path lineStart c.stop (number + 1)
      let node := Node.conditional condition ifPart.children elsePart.children
      return ⟨before ++ (.int number, node) :: rest.entries,
        ifPart.index ++ elsePart.index ++ rest.index⟩
termination_by (code.length, code.length - pos)

/-- Compile the text of a unit that stands at a path. -/
def compileUnit (code : List Char) (path : BlockPath) (lineStart : Bool) :
    Except CompileError CompiledUnit :=
  compileFrom code path lineStart 0 0

/-- A root block: its name and the text in it. -/
structure RootBlock where
  name : String
  body : List Char

/-- The root block at the start of a text, and what follows it. -/
def rootBlock? (s : List Char) : Option (RootBlock × List Char) :=
  match marker? s with
  | some (.blockBegin name, size) =>
    let after := s.drop size
    (blockEnd? name 0 after).map fun close =>
      (⟨String.ofList name, trimBoth isMargin (after.take close.start)⟩, after.drop close.stop)
  | _ => none

/-- The root blocks of a template in the order of the text. -/
def rootBlocks (code : List Char) : List RootBlock :=
  (cutPieces rootBlock? code).filterMap fun
    | .found block => some block
    | .literal _ => none

/-- Compile a root block: its node, and the paths of the blocks in it and of itself. -/
def RootBlock.compile (block : RootBlock) :
    Except CompileError ((Key × Node) × List (String × BlockPath)) := do
  let path : BlockPath := [.text block.name]
  let inner ← compileUnit block.body path true
  return ((.text block.name, .block (.text block.name) inner.children),
    (block.name, path) :: inner.index)

/-- Compile a template, its source text prepared already. -/
def compileTemplate (code : List Char) : Except CompileError CompiledTemplate := do
  let compiled ← (rootBlocks code).mapM RootBlock.compile
  let blocks := ofEntries (compiled.map (·.1))
  return {
    blocks
    index := (ofEntries (compiled.flatMap (·.2))).map fun (name, path) =>
      (name, path.map Key.toJson)
    tags := (sortedUnique ((childrenTags blocks).filterMap Json.text?)).map .text }

/-- The source text as it is compiled: cleaned up, if that is asked for. -/
def prepareSource (cleanup : Bool) (code : List Char) : List Char :=
  if cleanup then cleanupHtml code else code

end BlockTemplate
