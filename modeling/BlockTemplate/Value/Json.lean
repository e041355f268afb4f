import BlockTemplate.Json.Basic
import BlockTemplate.OrderedMap
import BlockTemplate.Value.Text

/-!
# Values as JSON

A mapping becomes an object whose names are the plain texts of its keys, so that the keys `1` and
the text `1` become one member. A host object becomes the object of its public attributes. Read
back, an object is a mapping with text keys.
-/

namespace BlockTemplate

mutual

/-- The JSON form of a value. -/
def Value.toJson : Value → Json
  | .null => .null
  | .bool b => .bool b
  | .number n => .number n
  | .text s => .text s
  | .sequence _ items => .array (jsonItems items)
  | .mapping _ entries => .object (ofEntries (jsonEntries entries))
  | .object _ _ attributes _ => .object (ofEntries (jsonAttributes attributes))

def jsonItems : List Value → List Json
  | [] => []
  | v :: rest => v.toJson :: jsonItems rest

def jsonEntries : List (Key × Value) → List (String × Json)
  | [] => []
  | (key, v) :: rest => (key.plain, v.toJson) :: jsonEntries rest

def jsonAttributes : List (String × Value) → List (String × Json)
  | [] => []
  | (name, v) :: rest =>
    if Value.isPrivate name then jsonAttributes rest else (name, v.toJson) :: jsonAttributes rest

end

mutual

/-- The value that a JSON value denotes. -/
def Value.ofJson : Json → Value
  | .null => .null
  | .bool b => .bool b
  | .number n => .number n
  | .text s => .text s
  | .array items => .sequence .temporary (valuesOfJson items)
  | .object members => .mapping .temporary (entriesOfJson members)

def valuesOfJson : List Json → List Value
  | [] => []
  | j :: rest => Value.ofJson j :: valuesOfJson rest

def entriesOfJson : List (String × Json) → List (Key × Value)
  | [] => []
  | (name, j) :: rest => (.text name, Value.ofJson j) :: entriesOfJson rest

end

end BlockTemplate
