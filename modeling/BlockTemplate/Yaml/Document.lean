import BlockTemplate.Yaml.Content
import BlockTemplate.Yaml.Scalar

/-!
# YAML documents

The value that a text denotes: one document, whose mappings have distinct scalars as keys.
-/

namespace BlockTemplate.Yaml

/-- The key that a value is. -/
def keyOf : Value → Except Error Key
  | .null => .ok .null
  | .bool b => .ok (.bool b)
  | .number (.int n) => .ok (.int n)
  | .number (.float x) => .ok (.real x)
  | .text s => .ok (.text s)
  | _ => .error .malformed

mutual

/-- The value of some content. -/
def Content.value : Content → Except Error Value
  | .plain text => (plainValue text).mapError .number
  | .quoted text => .ok (.text (String.ofList text))
  | .sequence items => do return .sequence .temporary (← itemValues items)
  | .mapping entries => do return .mapping .temporary (← entryValues [] entries)

def itemValues : List Content → Except Error (List Value)
  | [] => .ok []
  | item :: rest => do
    let v ← item.value
    return v :: (← itemValues rest)

/-- The entries of a mapping, of which those of the keys `seen` have been read. -/
def entryValues (seen : List Key) : List (Content × Content) → Except Error (List (Key × Value))
  | [] => .ok []
  | (key, value) :: rest => do
    let key ← keyOf (← key.value)
    let v ← value.value
    if seen.contains key then throw .malformed
    return (key, v) :: (← entryValues (key :: seen) rest)

end

/-- Characters that can stand in a text. -/
def isAllowed (c : Char) : Bool :=
  let code := c.toNat
  c == '\t' || c == '\n' || c == '\r' || c == '\x85' || 0x20 ≤ code && code ≤ 0x7E
    || 0xA0 ≤ code && code ≤ 0xFFFD || 0x10000 ≤ code

/-- The value of a document. -/
def parse (s : List Char) : Except Error Value :=
  if s.all isAllowed then do
    let tokens ← Token.scan s
    let content ← Error.orMalformed (Content.ofTokens? tokens)
    content.value
  else .error .malformed

end BlockTemplate.Yaml
