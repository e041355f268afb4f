import BlockTemplate.Node.Basic
import BlockTemplate.Stored.Reference

/-!
# Stored nodes

Template nodes as JSON. Children are stored as pairs of a key and a node.
-/

namespace BlockTemplate

/-- The stored form of a chunk of literal text. -/
def Chunk.toJson : Chunk → Json
  | .literal text => .text text
  | .tag target => .object [("ref", target.toJson)]
  | .other label => label

mutual

/-- The stored form of a node. -/
def Node.toJson : Node → Json
  | .data chunks => .object [("type", .text "data"), ("chunks", .array (chunks.map Chunk.toJson))]
  | .block name children =>
    .object [("type", .text "block"), ("name", name),
      ("children", .array (childrenToJson children))]
  | .loop header children =>
    .object [("type", .text "loop"), ("key", header.keyVar.getD .null),
      ("value", header.valueVar), ("set", header.collection.toJson),
      ("children", .array (childrenToJson children))]
  | .conditional condition ifChildren elseChildren =>
    .object [("type", .text "if"), ("expr", condition.toJson),
      ("if", .array (childrenToJson ifChildren)), ("else", .array (childrenToJson elseChildren))]

/-- The stored forms of children. -/
def childrenToJson : List (Key × Node) → List Json
  | [] => []
  | (key, node) :: rest => .array [key.toJson, node.toJson] :: childrenToJson rest

end

/-- Read a stored key. -/
def Key.ofJson (j : Json) : Except StoredError Key :=
  match j.key? with
  | some key => .ok key
  | none => .error .wrongKind

/-- Read a stored chunk. -/
def Chunk.ofJson (j : Json) : Except StoredError Chunk := do
  match j with
  | .text s => return .literal s
  | .object _ => return .tag (← Reference.ofJson (← j.field "ref").1)
  | label => return .other label

/-- Read the stored chunks of literal text. -/
def chunksOfJson (j : Json) : Except StoredError (List Chunk) := do
  (← j.labels).mapM Chunk.ofJson

/-- Why a text is no pair of a key and a node: its second character is no node, if it has two. -/
def pairError (s : String) : StoredError := if s.length = 2 then .notARecord else .notAPair

/-- The two items of a stored pair of a key and a node. -/
def Json.pair (j : Json) : Except StoredError (Json × Json.Part j) :=
  match j with
  | .array [first, second] =>
    .ok (first, ⟨second, Json.sizeOf_lt_of_mem (List.mem_cons_of_mem _ List.mem_cons_self)⟩)
  | .array _ => .error .notAPair
  | .text s => .error (pairError s)
  | .object members => .error (if members.length = 2 then .notARecord else .notAPair)
  | _ => .error .wrongKind

/-- Read a stored loop header. -/
def LoopHeader.ofJson (j : Json) : Except StoredError LoopHeader := do
  let valueVar ← j.field "value"
  let collection ← Reference.ofJson (← j.field "set").1
  let keyVar := match ← j.field? "key" with
    | none => none
    | some part => if part.1 matches .null then none else some part.1
  return ⟨keyVar, valueVar.1, collection⟩

/-- What a stored node says about its type, as messages show it. -/
def shownType (type : Json) : StoredError :=
  if type.key?.isSome then .unknownNodeType type.inMessage else .wrongKind

mutual

/-- Read a stored node. -/
def Node.ofJson (j : Json) : Except StoredError Node := do
  -- a missing type is shown like a null one
  let type := ((← j.field? "type").map (·.1)).getD .null
  match type with
  | .text "data" => return .data (← chunksOfJson (← j.field "chunks").1)
  | .text "block" =>
    let name ← j.field "name"
    let ⟨children, _⟩ ← j.field "children"
    return .block name.1 (ofEntries (← childrenOfJson children))
  | .text "loop" =>
    let header ← LoopHeader.ofJson j
    let ⟨children, _⟩ ← j.field "children"
    return .loop header (ofEntries (← childrenOfJson children))
  | .text "if" =>
    let condition ← Condition.ofJson (← j.field "expr").1
    let ⟨ifPart, _⟩ ← j.field "if"
    let ifChildren ← childrenOfJson ifPart
    let ⟨elsePart, _⟩ ← j.field "else"
    let elseChildren ← childrenOfJson elsePart
    return .conditional condition (ofEntries ifChildren) (ofEntries elseChildren)
  | type => throw (shownType type)
termination_by sizeOf j

/-- Read stored children. -/
def childrenOfJson (j : Json) : Except StoredError (List (Key × Node)) := do
  (← j.parts pairError).mapM fun ⟨entry, h⟩ => do
    let (key, ⟨node, hnode⟩) ← entry.pair
    have : sizeOf node < sizeOf j := Nat.lt_trans hnode h
    -- it is the node that is read first
    let node ← Node.ofJson node
    return (← Key.ofJson key, node)
termination_by sizeOf j

end

end BlockTemplate
