import BlockTemplate.Stored.Node

/-!
# Stored templates

A compiled template is stored as three JSON values: the tree of its root blocks, the index of all
blocks, and the names of its tags. Reading them back may fail in any way, and the cause does not
matter.
-/

namespace BlockTemplate

namespace CompiledTemplate

/-- The version that is written into stored trees; it is not looked at when they are read. -/
def storedVersion : Nat := 1

/-- The stored root blocks. -/
def treeToJson (t : CompiledTemplate) : Json :=
  .object [("v", .int storedVersion), ("blocks", .array (childrenToJson t.blocks))]

/-- The stored index. -/
def indexToJson (t : CompiledTemplate) : Json :=
  .object (t.index.map fun (name, labels) => (name, .array labels))

/-- The stored tag names. -/
def tagsToJson (t : CompiledTemplate) : Json := .array (t.tags.map Key.toJson)

/-- Read a stored root block; no other node can stand at the root. -/
def rootEntryOfJson (entry : Json) : Except StoredError (Key × Node) := do
  let (key, part) ← entry.pair
  let key ← Key.ofJson key
  match ← Node.ofJson part.1 with
  | .block name children => return (key, .block name children)
  | _ => throw .wrongKind

/-- Read the stored root blocks. -/
def treeOfJson (j : Json) : Except StoredError Children := do
  let entries ← (← j.field "blocks").1.parts pairError
  return ofEntries (← entries.mapM fun entry => rootEntryOfJson entry.1)

/-- Read the stored index. -/
def indexOfJson : Json → Except StoredError (List (String × List Label))
  | .object members => members.mapM fun (name, j) => do return (name, ← j.labels)
  | _ => .error .notARecord

/-- Read the stored tag names, each of them once. -/
def tagsOfJson (j : Json) : Except StoredError (List Key) := do
  let keys ← (← j.labels).mapM Key.ofJson
  return (ofEntries (keys.map fun key => (key, ()))).map (·.1)

/-- Read a stored template. -/
def ofJson (tree index tags : Json) : Except StoredError CompiledTemplate := do
  return {
    blocks := ← treeOfJson tree
    index := ← indexOfJson index
    tags := ← tagsOfJson tags }

end CompiledTemplate

end BlockTemplate
