import BlockTemplate.OrderedMap
import BlockTemplate.Value.Numeric

/-!
# Dotted paths

Reading follows a key into a mapping, a position into a sequence and a public attribute into an
object; it fails only at a position with too many digits. Writing follows text keys into mappings
only, and puts a new mapping wherever it finds anything else.
-/

namespace BlockTemplate

/-- The value of a text key, or else of the integer key that the text denotes. -/
def entryAt? (key : String) (entries : List (Key × Value)) :
    Except ArithmeticError (Option Value) := do
  match valueOf? (.text key) entries with
  | some v => return some v
  | none => return (← position? key).bind fun n => valueOf? (.int n) entries

namespace Value

/-- One step of a path into a value; null where nothing is found. -/
def item (key : String) : Value → Except ArithmeticError Value
  | .mapping _ entries => do return (← entryAt? key entries).getD .null
  | .sequence _ items => do return ((← position? key).bind (items[·]?)).getD .null
  | .object _ _ attributes _ =>
    .ok (if isPrivate key then .null else (valueOf? key attributes).getD .null)
  | _ => .ok .null

/-- The value at the end of a path; null where a step finds nothing. -/
def getPath : List String → Value → Except ArithmeticError Value
  | [], v => .ok v
  | key :: keys, v => do (← v.item key).getPath keys

/-- Whether a dotted assignment can write into the value. -/
def writableEntries? : Value → Option (Origin × List (Key × Value))
  | .mapping .globals _ => none
  | .mapping origin entries => some (origin, entries)
  | _ => none

end Value

/-- Entries with `value` at the end of the path that starts with `key` and goes on with `keys`. The
    mappings that are missing on the way are created, numbered from `fresh`. -/
def setPathIn (fresh : Nat) (value : Value) :
    (key : String) → (keys : List String) → List (Key × Value) → List (Key × Value)
  | key, [], entries => upsert (.text key) value entries
  | key, next :: keys, entries =>
    let (origin, inner) := ((valueOf? (.text key) entries).bind Value.writableEntries?).getD
      (.assigned fresh, [])
    upsert (.text key) (.mapping origin (setPathIn (fresh + 1) value next keys inner)) entries

/-- Why nothing can be written at a path. -/
inductive PathError where
  | emptyPath
  /-- the path would lead through something that has no entries -/
  | noWay
  /-- the path ends in something that has no entries -/
  | noEntries
deriving DecidableEq, Repr

/-- The message of the error. -/
def PathError.message : PathError → String
  | .emptyPath => "Empty path"
  | .noWay => "Only mappings have entries to follow"
  | .noEntries => "Only mappings have entries to write"

/-- The mapping with `value` at the end of a path; `fresh` numbers the mappings that are created. -/
def Value.setPath (root : Value) (fresh : Nat) (keys : List String) (value : Value) :
    Except PathError Value :=
  match root, keys with
  | _, [] => .error .emptyPath
  | .mapping origin entries, key :: keys =>
    .ok (.mapping origin (setPathIn fresh value key keys entries))
  | _, [_] => .error .noEntries
  | _, _ => .error .noWay

end BlockTemplate
