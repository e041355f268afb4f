import BlockTemplate.Value.Path

/-!
# Shared mappings

A dotted assignment changes one mapping, the last one on its way that existed before. Every other
occurrence of that mapping has to change with it: `Value.share` brings an occurrence up to date.
-/

namespace BlockTemplate

/-- Whether several occurrences can be one mapping. -/
def Origin.isShared : Origin → Bool
  | .host _ | .assigned _ => true
  | _ => false

mutual

/-- Give every mapping of the given origin the given entries. -/
def Value.share (origin : Origin) (contents : List (Key × Value)) : Value → Value
  | .mapping o entries =>
    if o = origin then .mapping o contents else .mapping o (shareEntries origin contents entries)
  | .sequence o items => .sequence o (shareItems origin contents items)
  | .object identity className attributes items =>
    .object identity className (shareAttributes origin contents attributes)
      (shareYields origin contents items)
  | v => v

def shareItems (origin : Origin) (contents : List (Key × Value)) : List Value → List Value
  | [] => []
  | v :: rest => v.share origin contents :: shareItems origin contents rest

def shareEntries (origin : Origin) (contents : List (Key × Value)) :
    List (Key × Value) → List (Key × Value)
  | [] => []
  | (key, v) :: rest => (key, v.share origin contents) :: shareEntries origin contents rest

def shareAttributes (origin : Origin) (contents : List (Key × Value)) :
    List (String × Value) → List (String × Value)
  | [] => []
  | (name, v) :: rest => (name, v.share origin contents) :: shareAttributes origin contents rest

def shareYields (origin : Origin) (contents : List (Key × Value)) :
    Option (List Value) → Option (List Value)
  | none => none
  | some items => some (shareItems origin contents items)

end

/-- The mapping that a dotted assignment changes, with its entries afterwards: the last shared one
    on the way, if there is one. -/
def changedMapping? (fresh : Nat) (value : Value) :
    (key : String) → (keys : List String) → List (Key × Value) →
      Option (Origin × List (Key × Value))
  | _, [], _ => none
  | key, next :: keys, entries =>
    match (valueOf? (.text key) entries).bind Value.writableEntries? with
    | none => none
    | some (origin, inner) =>
      match changedMapping? (fresh + 1) value next keys inner with
      | some changed => some changed
      | none =>
        if origin.isShared then some (origin, setPathIn (fresh + 1) value next keys inner) else none

end BlockTemplate
