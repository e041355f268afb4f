import BlockTemplate.OrderedMap
import BlockTemplate.Text.Order
import BlockTemplate.Value.Numeric
import BlockTemplate.Value.Text

/-!
# Comparison of values

Three relations: the loose order behind `<` and `>`, loose equality, which coerces, and strict
equality, which also compares types and the order of entries. Objects are compared by identity.
-/

namespace BlockTemplate

/-- The order of truth values. -/
def compareBool (a b : Bool) : Ordering := compare a.toNat b.toNat

namespace Value

/-- The loose order of two texts: as numbers if both are numeric. -/
def compareTexts (a b : String) : Ordering :=
  match parseNumber? a, parseNumber? b with
  | some x, some y => x.compare y
  | _, _ => compareText a b

/-- The loose order of a number and a text: as numbers if the text is numeric, else as texts. -/
def compareNumberText (a : Number) (b : String) : Ordering :=
  match parseNumber? b with
  | some y => a.compare y
  | none => compareText a.shown b

/-- The loose order of two values of which not both are arrays. Null before a text counts as the
    empty text; otherwise null and truth values turn both sides into truth values. Arrays are
    greater than scalars, and an object is greater than all but itself. -/
def compareFlat : Value → Value → Ordering
  | .null, .text t => compareText "" t
  | .text s, .null => compareText s ""
  | .null, w => compareBool false w.isTrue
  | .bool b, w => compareBool b w.isTrue
  | v, .null => compareBool v.isTrue false
  | v, .bool b => compareBool v.isTrue b
  | .number a, .number b => a.compare b
  | .text s, .text t => compareTexts s t
  | .number a, .text t => compareNumberText a t
  | .text s, .number b => (compareNumberText b s).swap
  | .object a .., .object b .. => if a = b then .eq else .gt
  | .object .., _ => .gt
  | _, .object .. => .gt
  | v, _ => if v.isArray then .gt else .lt

mutual

/-- The loose order of two values. Arrays compare by size, then element by element in the order of
    the left side; a key that the right side lacks makes the left side greater. -/
def compare : Value → Value → Ordering
  | .sequence _ items, w =>
    match w.entries? with
    | some others =>
      (Ord.compare items.length others.length).then (compareItems 0 items others)
    | none => compareFlat (.sequence .temporary items) w
  | .mapping _ entries, w =>
    match w.entries? with
    | some others =>
      (Ord.compare entries.length others.length).then (compareEntries entries others)
    | none => compareFlat (.mapping .temporary entries) w
  | v, w => compareFlat v w

def compareItems (start : Nat) : List Value → List (Key × Value) → Ordering
  | [], _ => .eq
  | v :: rest, others =>
    match valueOf? (.int start) others with
    | none => .gt
    | some w => (compare v w).then (compareItems (start + 1) rest others)

def compareEntries : List (Key × Value) → List (Key × Value) → Ordering
  | [], _ => .eq
  | (key, v) :: rest, others =>
    match valueOf? key others with
    | none => .gt
    | some w => (compare v w).then (compareEntries rest others)

end

/-- Loose equality of two values of which not both are arrays. -/
def looselyEqualFlat (v w : Value) : Bool :=
  if v.isContainer || w.isContainer then
    let other := if v.isContainer then w else v
    match other with
    | .null | .bool _ => v.isTrue == w.isTrue
    | _ =>
      match v, w with
      | .object a .., .object b .. => a == b
      | _, _ => false
  else compareFlat v w == .eq

mutual

/-- Loose equality. Arrays are equal if they have the same keys, in any order, with loosely equal
    values. A container equals null or a truth value of its own truth, and no other scalar. -/
def looselyEqual : Value → Value → Bool
  | .sequence _ items, w =>
    match w.entries? with
    | some others => items.length == others.length && looselyEqualItems 0 items others
    | none => looselyEqualFlat (.sequence .temporary items) w
  | .mapping _ entries, w =>
    match w.entries? with
    | some others => entries.length == others.length && looselyEqualEntries entries others
    | none => looselyEqualFlat (.mapping .temporary entries) w
  | v, w => looselyEqualFlat v w

def looselyEqualItems (start : Nat) : List Value → List (Key × Value) → Bool
  | [], _ => true
  | v :: rest, others =>
    match valueOf? (.int start) others with
    | none => false
    | some w => looselyEqual v w && looselyEqualItems (start + 1) rest others

def looselyEqualEntries : List (Key × Value) → List (Key × Value) → Bool
  | [], _ => true
  | (key, v) :: rest, others =>
    match valueOf? key others with
    | none => false
    | some w => looselyEqual v w && looselyEqualEntries rest others

end

/-- Numbers of one kind and value. -/
def strictlyEqualNumber : Number → Number → Bool
  | .int a, .int b => a == b
  | .float x, .float y => (Number.float x).equals (.float y)
  | _, _ => false

/-- Whether a sequence and a mapping are both empty. -/
def bothEmpty (items : List Value) (entries : List (Key × Value)) : Bool :=
  items.isEmpty && entries.isEmpty

mutual

/-- Strict equality: same type and same value, entries in the same order, objects by identity. An
    empty sequence and an empty mapping are the same. -/
def strictlyEqual : Value → Value → Bool
  | .null, .null => true
  | .bool a, .bool b => a == b
  | .number a, .number b => strictlyEqualNumber a b
  | .text s, .text t => s == t
  | .sequence _ items, .sequence _ others => strictlyEqualItems items others
  | .mapping _ entries, .mapping _ others => strictlyEqualEntries entries others
  | .sequence _ items, .mapping _ entries => bothEmpty items entries
  | .mapping _ entries, .sequence _ items => bothEmpty items entries
  | .object a .., .object b .. => a == b
  | _, _ => false

def strictlyEqualItems : List Value → List Value → Bool
  | [], [] => true
  | v :: rest, w :: others => strictlyEqual v w && strictlyEqualItems rest others
  | _, _ => false

def strictlyEqualEntries : List (Key × Value) → List (Key × Value) → Bool
  | [], [] => true
  | (key, v) :: rest, (other, w) :: others =>
    key == other && strictlyEqual v w && strictlyEqualEntries rest others
  | _, _ => false

end

/-- Whether an array has an element that loosely equals the value. -/
def hasElement (haystack needle : Value) : Bool :=
  match haystack.elements? with
  | some elements => elements.any (looselyEqual · needle)
  | none => false

/-- Whether both are texts and the second occurs in the first. -/
def hasSubstring : Value → Value → Bool
  | .text s, .text t => occursIn t.toList s.toList
  | _, _ => false

end Value

end BlockTemplate
