import BlockTemplate.OrderedMap
import BlockTemplate.Text.Order
import BlockTemplate.Text.Quoted
import BlockTemplate.Text.Word
import BlockTemplate.Value.Basic

/-!
# Callbacks

A callback turns the value of a tag into another one. Templates reach only the callbacks that the
host has put into a registry by name.
-/

namespace BlockTemplate

/-- Why a callback gives no value. -/
inductive CallbackError where
  /-- the number or the types of the arguments are wrong -/
  | wrongArguments
  /-- the host function failed with a message of its own -/
  | failed (message : String)
deriving DecidableEq, Repr

/-- A function of the host. -/
abbrev Callback := List Value → Except CallbackError Value

/-- Why a name cannot be registered. -/
inductive RegistrationError where
  | invalidName (name : String)
  | notCallable (name : String)
deriving DecidableEq, Repr

/-- The message of a registration error. -/
def RegistrationError.message : RegistrationError → String
  | .invalidName name => "Invalid callback name: " ++ quoted name
  | .notCallable name => "Callback " ++ quoted name ++ " is not callable"

/-- The callbacks of a host by name. -/
structure Registry where
  callbacks : List (String × Callback)

namespace Registry

/-- A registry without callbacks. -/
def empty : Registry := ⟨[]⟩

/-- The callback of a name. -/
def get? (r : Registry) (name : String) : Option Callback := valueOf? name r.callbacks

/-- The registered names in order. -/
def names (r : Registry) : List String := sortedBy id (r.callbacks.map (·.1))

/-- Whether a name is registered. -/
def contains (r : Registry) (name : String) : Bool := (r.get? name).isSome

/-- Whether a callback can have the name: word characters only, and at least one. -/
def isValidName (name : String) : Bool := name != "" && name.toList.all isWord

/-- Register what the host gives under a name; it is refused if it is not a callback. -/
def register (r : Registry) (name : String) (given : Option Callback) :
    Except RegistrationError Registry :=
  if isValidName name then
    match given with
    | some callback => .ok ⟨upsert name callback r.callbacks⟩
    | none => .error (.notCallable name)
  else .error (.invalidName name)

/-- Forget a name. -/
def unregister (r : Registry) (name : String) : Registry := ⟨removeKey name r.callbacks⟩

/-- The registry with the given callbacks in addition. -/
def withCallbacks (r : Registry) (callbacks : List (String × Callback)) : Registry :=
  ⟨callbacks.foldl (fun known (name, callback) => upsert name callback known) r.callbacks⟩

end Registry

end BlockTemplate
