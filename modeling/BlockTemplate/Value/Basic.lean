import BlockTemplate.Key

/-!
# Template values

A template sees a closed set of dynamically typed values. Sequences and mappings are arrays: they
can be indexed and iterated. Host objects are opaque apart from their public attributes, and some of
them can be iterated.

Arrays can be changed through a name that is bound to them, and then every other name bound to the
same array sees the change. `Origin` tells which occurrences are the same array; it has no part in
the value itself, so no coercion or comparison looks at it.
-/

namespace BlockTemplate

/-- Where an array comes from. Two occurrences with one number are the same array. -/
inductive Origin where
  /-- built during a computation and held by nobody else -/
  | temporary
  /-- given by the host -/
  | host (number : Nat)
  /-- created by a dotted assignment -/
  | assigned (number : Nat)
  /-- the host globals themselves, which cannot be changed -/
  | globals
deriving DecidableEq, Repr, Inhabited

/-- A value of the template language. -/
inductive Value where
  | null
  | bool (b : Bool)
  | number (n : Number)
  | text (s : String)
  | sequence (origin : Origin) (items : List Value)
  | mapping (origin : Origin) (entries : List (Key × Value))
  /-- a host object: its identity, the name of its class, its attributes in order, and the values
      that it yields if it can be iterated -/
  | object (identity : Nat) (className : String) (attributes : List (String × Value))
      (items : Option (List Value))
deriving Repr, Inhabited

namespace Value

/-- The integer `n`. -/
abbrev int (n : Int) : Value := .number (.int n)

/-- Null, a truth value, a number or a text. -/
def isScalar : Value → Bool
  | .null | .bool _ | .number _ | .text _ => true
  | _ => false

def isNumber : Value → Bool
  | .number _ => true
  | _ => false

def isText : Value → Bool
  | .text _ => true
  | _ => false

def isSequence : Value → Bool
  | .sequence .. => true
  | _ => false

def isMapping : Value → Bool
  | .mapping .. => true
  | _ => false

/-- A sequence or a mapping. -/
def isArray : Value → Bool
  | .sequence .. | .mapping .. => true
  | _ => false

def isObject : Value → Bool
  | .object .. => true
  | _ => false

/-- An array or an object. -/
def isContainer (v : Value) : Bool := !v.isScalar

/-- The items of a sequence with their positions, counted from `start`. -/
def indexed (start : Nat) : List Value → List (Key × Value)
  | [] => []
  | v :: rest => (.int start, v) :: indexed (start + 1) rest

/-- The entries of an array; the keys of a sequence are its positions. -/
def entries? : Value → Option (List (Key × Value))
  | .sequence _ items => some (indexed 0 items)
  | .mapping _ entries => some entries
  | _ => none

/-- The elements of an array. -/
def elements? : Value → Option (List Value)
  | .sequence _ items => some items
  | .mapping _ entries => some (entries.map (·.2))
  | _ => none

/-- What a loop goes through: the entries of an array, or the numbered items of an object that can
    be iterated. -/
def loopEntries? : Value → Option (List (Key × Value))
  | .object _ _ _ (some items) => some (indexed 0 items)
  | v => v.entries?

/-- The attribute that promises that an object can be iterated. -/
def iterationName : String := "__iter__"

/-- Whether an object promises that it can be iterated, but cannot. -/
def breaksPromise : Value → Bool
  | .object _ _ attributes none => attributes.any fun (name, _) => name == iterationName
  | _ => false

/-- Attributes whose name starts with an underscore are private. -/
def isPrivate (name : String) : Bool := name.toList.head? == some '_'

/-- The name that error messages use for the type of a value. -/
def typeName : Value → String
  | .null => "NoneType"
  | .bool _ => "bool"
  | .number (.int _) => "int"
  | .number (.float _) => "float"
  | .text _ => "str"
  | .sequence .. => "list"
  | .mapping .globals _ => "mappingproxy"
  | .mapping .. => "dict"
  | .object _ className .. => className

end Value

/-- The value of a key. -/
def Key.toValue : Key → Value
  | .text s => .text s
  | .int n => .int n
  | .bool b => .bool b
  | .real x => .number (.float x)
  | .null => .null

end BlockTemplate
