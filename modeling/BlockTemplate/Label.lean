import BlockTemplate.Json.Basic
import BlockTemplate.Key
import BlockTemplate.Text.Quoted

/-!
# Labels

A template refers to everything by texts: names, keys, pieces of its source. Where a stored template
has been damaged, any JSON value can stand in the place of such a text. That does no harm until the
text is needed; a label is what stands there.
-/

namespace BlockTemplate

/-- A text, or what stands in its place in a damaged template. -/
abbrev Label := Json

/-- Why something other than a text does not do for one. -/
inductive LabelError where
  /-- a list or a record, which no key can be -/
  | notAKey
  /-- something that is no text where only a text will do -/
  | notAText
  /-- something that is no text in the place of the name of an attribute -/
  | notAnAttribute
  /-- keys of several types, which have no order -/
  | noOrder
deriving DecidableEq, Repr

mutual

/-- A JSON value as messages show it. -/
def Json.inMessage : Json → String
  | .null => Key.nullName
  | .bool b => Key.boolName b
  | .number n => n.literal
  | .text s => quoted s
  | .array items => "[" ++ ", ".intercalate (itemsInMessage items) ++ "]"
  | .object members => "\x7b" ++ ", ".intercalate (membersInMessage members) ++ "\x7d"

def itemsInMessage : List Json → List String
  | [] => []
  | j :: rest => j.inMessage :: itemsInMessage rest

def membersInMessage : List (String × Json) → List String
  | [] => []
  | (name, j) :: rest => (quoted name ++ ": " ++ j.inMessage) :: membersInMessage rest

end

/-- A key as messages show it. -/
def Key.inMessage : Key → String
  | .text s => quoted s
  | key => key.plain

/-- The JSON value of a key. -/
def Key.toJson : Key → Json
  | .text s => .text s
  | .int n => .int n
  | .bool b => .bool b
  | .real x => .number (.float x)
  | .null => .null

namespace Json

/-- The key that a label is; lists and records are none. -/
def key? : Label → Option Key
  | .null => some .null
  | .bool b => some (.bool b)
  | .number (.int n) => some (.int n)
  | .number (.float x) => some (.real x)
  | .text s => some (.text s)
  | .array _ | .object _ => none

@[simp] theorem key?_toJson (key : Key) : key.toJson.key? = some key := by
  cases key <;> rfl

/-- The key that a label is. -/
def toKey (label : Label) : Except LabelError Key :=
  match label.key? with
  | some key => .ok key
  | none => .error .notAKey

/-- The text that a label is. -/
def text? : Label → Option String
  | .text s => some s
  | _ => none

def isText (label : Label) : Bool := label.text?.isSome

/-- What is written in the place of a label. -/
def shown : Label → String
  | .text s => s
  | j => j.inMessage

/-- Whether a label stands for nothing: null, false, zero, or an empty text, list or record. -/
def isNothing : Label → Bool
  | .null => true
  | .bool b => !b
  | .number n => n.isZero
  | .text s => s == ""
  | .array items => items.isEmpty
  | .object members => members.isEmpty

end Json

end BlockTemplate
