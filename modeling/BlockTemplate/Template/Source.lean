import BlockTemplate.Reference.Depth
import BlockTemplate.Tag.Depth
import BlockTemplate.Template.Compile

/-!
# Templates and units from source texts

A source text gives a template if it compiles and nothing in it is nested too deep to be read.
-/

namespace BlockTemplate

/-- The most constructs that can be open at once. -/
def mostOpenConstructs : Nat := 328

/-- Why a source text gives no template. -/
inductive SourceError where
  | compile (cause : CompileError)
  | nesting (cause : NestingError)
deriving DecidableEq, Repr

mutual

/-- The number of constructs that are open at once in a node. -/
def Node.depth : Node → Nat
  | .data _ => 0
  | .block _ children => childrenDepth children + 1
  | .loop _ children => childrenDepth children + 1
  | .conditional _ ifChildren elseChildren =>
    max (childrenDepth ifChildren) (childrenDepth elseChildren) + 1

def childrenDepth : List (Key × Node) → Nat
  | [] => 0
  | (_, node) :: rest => max node.depth (childrenDepth rest)

end

mutual

/-- The texts of the data in a node. -/
def Node.dataTexts : Node → List (List Chunk)
  | .data chunks => [chunks]
  | .block _ children => childrenDataTexts children
  | .loop _ children => childrenDataTexts children
  | .conditional _ ifChildren elseChildren =>
    childrenDataTexts ifChildren ++ childrenDataTexts elseChildren

def childrenDataTexts : List (Key × Node) → List (List Chunk)
  | [] => []
  | (_, node) :: rest => node.dataTexts ++ childrenDataTexts rest

end

mutual

/-- The numbers of references that are open at once in the headers of loops and the conditions of a
    node. -/
def Node.headerDepths : Node → List Nat
  | .data _ => []
  | .block _ children => childrenHeaderDepths children
  | .loop header children => header.collection.depth :: childrenHeaderDepths children
  | .conditional condition ifChildren elseChildren =>
    condition.tokens.map Token.depth
      ++ (childrenHeaderDepths ifChildren ++ childrenHeaderDepths elseChildren)

def childrenHeaderDepths : List (Key × Node) → List Nat
  | [] => []
  | (_, node) :: rest => node.headerDepths ++ childrenHeaderDepths rest

end

/-- Whether too many tags are open at once in literal text. -/
def chunksOverflow (chunks : List Chunk) : Bool := hasOverflow (chunksSource chunks).toList

/-- What is nested too deep in nodes. -/
def nestingError? (nodes : Children) : Option NestingError :=
  let texts := childrenDataTexts nodes
  let depths := texts.flatten.map Chunk.depth ++ childrenHeaderDepths nodes
  if mostOpenConstructs < childrenDepth nodes then some .constructs
  else if texts.any chunksOverflow then some .tags
  else if depths.any (mostOpenReferences < ·) then some .references
  else none

/-- What has been compiled, unless something in its nodes is nested too deep. -/
def withinNesting {α : Type} (nodes : α → Children) (compiled : Except CompileError α) :
    Except SourceError α :=
  match compiled with
  | .error e => .error (.compile e)
  | .ok compiled =>
    match nestingError? (nodes compiled) with
    | some e => .error (.nesting e)
    | none => .ok compiled

/-- The template that a prepared source text gives. -/
def CompiledTemplate.ofSource (code : List Char) : Except SourceError CompiledTemplate :=
  withinNesting CompiledTemplate.blocks (compileTemplate code)

/-- The unit that stands at a path. -/
def CompiledUnit.ofSource (code : List Char) (path : BlockPath) (lineStart : Bool) :
    Except SourceError CompiledUnit :=
  withinNesting CompiledUnit.children (compileUnit code path lineStart)

theorem eq_ok_of_withinNesting {α : Type} {nodes : α → Children}
    {compiled : Except CompileError α} {result : α}
    (h : withinNesting nodes compiled = .ok result) : compiled = .ok result := by
  unfold withinNesting at h
  split at h
  · exact nomatch h
  · split at h
    · exact nomatch h
    · rw [Except.ok.inj h]

end BlockTemplate
