import BlockTemplate.Condition.Postfix
import BlockTemplate.OrderedMap
import BlockTemplate.Text.Order

/-!
# Template nodes

A compiled template is a tree. Data nodes hold literal text with tags. Blocks are named and keep
what they have rendered until it is fetched. Loops and conditionals render their children directly.

The children of a node are in order. Blocks are keyed by their name, all other children by a running
number.
-/

namespace BlockTemplate

/-- What a loop goes through, and the variables that it binds. -/
structure LoopHeader where
  keyVar : Option Label
  valueVar : Label
  collection : Reference

/-- A node of a compiled template. -/
inductive Node where
  | data (chunks : List Chunk)
  | block (name : Label) (children : List (Key × Node))
  | loop (header : LoopHeader) (children : List (Key × Node))
  | conditional (condition : Condition) (ifChildren elseChildren : List (Key × Node))

/-- The children of a node, or the root blocks of a template. -/
abbrev Children := List (Key × Node)

/-- The keys on the way to a node. -/
abbrev BlockPath := List Key

/-- The full name of a block: the names on its path with dots between them. -/
def fullName (path : BlockPath) : String := ".".intercalate (path.filterMap Key.text?)

/-- The names of the variables that chunks refer to. -/
def chunksTags (chunks : List Chunk) : List Label :=
  chunks.filterMap fun
    | .tag target => some target.name
    | _ => none

mutual

/-- The names of the variables in the literal text of a node. -/
def Node.tags : Node → List Label
  | .data chunks => chunksTags chunks
  | .block _ children => childrenTags children
  | .loop _ children => childrenTags children
  | .conditional _ ifChildren elseChildren => childrenTags ifChildren ++ childrenTags elseChildren

def childrenTags : List (Key × Node) → List Label
  | [] => []
  | (_, node) :: rest => node.tags ++ childrenTags rest

end

namespace LoopHeader

/-- The variable for the keys, unless it is none or nothing. -/
def boundKey? (h : LoopHeader) : Option Label := h.keyVar.filter fun label => !label.isNothing

/-- The header of a loop as it is written. -/
def toSource (h : LoopHeader) : String :=
  let value := "\x7b" ++ h.valueVar.shown ++ "\x7d IN " ++ h.collection.toSource
  match h.boundKey? with
  | some key => "\x7b" ++ key.shown ++ "\x7d, " ++ value
  | none => value

end LoopHeader

mutual

/-- The node as it is written, without the markers of a block. -/
def Node.toSource : Node → String
  | .data chunks => chunksSource chunks
  | .block _ children => childrenSource children
  | .loop header children =>
    "<!-- FOR " ++ header.toSource ++ " -->\n" ++ childrenSource children ++ "<!-- ENDFOR -->\n"
  | .conditional condition ifChildren elseChildren =>
    "<!-- IF " ++ condition.source.shown ++ " -->\n" ++ childrenSource ifChildren
      ++ (if elseChildren.isEmpty then "" else "<!-- ELSE -->\n" ++ childrenSource elseChildren)
      ++ "<!-- ENDIF -->\n"

/-- Nodes as they are written, those with a name between the markers of a block. -/
def childrenSource : List (Key × Node) → String
  | [] => ""
  | (key, node) :: rest =>
    (match key with
      | .text name =>
        "<!-- BEGIN: " ++ name ++ " -->\n" ++ node.toSource ++ "<!-- END: " ++ name ++ " -->\n"
      | _ => node.toSource)
      ++ childrenSource rest

end

theorem childrenSource_text_cons (name : String) (node : Node) (rest : Children) :
    childrenSource ((.text name, node) :: rest)
      = "<!-- BEGIN: " ++ name ++ " -->\n" ++ node.toSource ++ "<!-- END: " ++ name ++ " -->\n"
        ++ childrenSource rest :=
  rfl

theorem childrenSource_cons_of_not_text {key : Key} (h : key.text? = none) (node : Node)
    (rest : Children) :
    childrenSource ((key, node) :: rest) = node.toSource ++ childrenSource rest := by
  cases key with
  | text name => exact nomatch h
  | _ => rfl

mutual

/-- Whether all of a node can be written. -/
def Node.hasSource : Node → Bool
  | .data chunks => chunks.all Chunk.hasSource
  | .block _ children => childrenHaveSource children
  | .loop header children => header.collection.hasSource && childrenHaveSource children
  | .conditional _ ifChildren elseChildren =>
    childrenHaveSource ifChildren && childrenHaveSource elseChildren

def childrenHaveSource : List (Key × Node) → Bool
  | [] => true
  | (_, node) :: rest => node.hasSource && childrenHaveSource rest

end

/-- A place in a template: a node, or a level of nodes, which is the root or a branch. -/
inductive Place where
  | node (n : Node)
  | level (nodes : Children)

namespace Place

/-- The node with a label among nodes, with its key. -/
def child (label : Label) (nodes : Children) : Except LabelError (Option (Key × Place)) := do
  let key ← label.toKey
  return (entryOf? key nodes).map fun (key, n) => (key, .node n)

/-- The branch with a label; the two branches of a conditional have the numbers 0 and 1. -/
def branch? (label : Label) (ifChildren elseChildren : Children) : Option (Key × Place) :=
  if label.key? == some (.int 0) then some (.int 0, .level ifChildren)
  else if label.key? == some (.int 1) then some (.int 1, .level elseChildren)
  else none

/-- One step down from a place: the place there, and its key. -/
def step (label : Label) : Place → Except LabelError (Option (Key × Place))
  | .level nodes => child label nodes
  | .node (.block _ children) => child label children
  | .node (.loop _ children) => child label children
  | .node (.conditional _ ifChildren elseChildren) => .ok (branch? label ifChildren elseChildren)
  | .node (.data _) => .ok none

/-- The place at the end of some labels, with the path to it. -/
def follow (labels : List Label) (place : Place) : Except LabelError (Option (BlockPath × Place)) :=
  match labels with
  | [] => .ok (some ([], place))
  | label :: rest => do
    match ← place.step label with
    | none => return none
    | some (key, next) => return (← next.follow rest).map fun (path, found) => (key :: path, found)

/-- The kind of a place, as messages name it. -/
def kindName : Place → String
  | .node (.data _) => "DataNode"
  | .node (.block ..) => "BlockNode"
  | .node (.loop ..) => "LoopNode"
  | .node (.conditional ..) => "ConditionalNode"
  | .level _ => "dict"

end Place

/-- A compiled template: its root blocks, the labels on the ways to all blocks by their full names,
    and the names of the variables in literal text, each of them once and, as they are compiled, in
    order. -/
structure CompiledTemplate where
  blocks : Children
  index : List (String × List Label)
  tags : List Key

namespace CompiledTemplate

/-- The template as it is written. -/
def toSource (t : CompiledTemplate) : String := childrenSource t.blocks

/-- Whether all of the template can be written. -/
def hasSource (t : CompiledTemplate) : Bool := childrenHaveSource t.blocks

/-- The place of a block by its full name, with the path to it. -/
def locate (t : CompiledTemplate) (name : String) :
    Except LabelError (Option (BlockPath × Place)) :=
  match valueOf? name t.index with
  | none | some [] => .ok none
  | some labels => (Place.level t.blocks).follow labels

/-- The names of the variables in order. -/
def sortedTags (t : CompiledTemplate) : Except LabelError (List Key) :=
  match Key.sorted? t.tags with
  | some tags => .ok tags
  | none => .error .noOrder

end CompiledTemplate

end BlockTemplate
