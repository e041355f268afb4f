import BlockTemplate.Label
import BlockTemplate.OrderedMap
import BlockTemplate.Text.Basic

/-!
# Reading stored forms

Compiled templates are stored as JSON. What is read back may have been damaged, so that every access
to a field can fail. What is no text where one belongs is kept as a label and fails later, or never.
Each reader of a nested form hands on the fact that the inner form is smaller.

A list may also be given as a text, which is the list of its characters, or as a record, which is
the list of its names.
-/

namespace BlockTemplate

/-- Why a stored form cannot be read. -/
inductive StoredError where
  /-- a field that must be there is not -/
  | missingField (name : String)
  /-- a value of the wrong kind -/
  | wrongKind
  /-- fields were expected in something that has none -/
  | notARecord
  /-- a pair was expected in something with fewer or more items -/
  | notAPair
  /-- an operator that does not exist -/
  | unknownOperator
  /-- a node of an unknown type, as messages show the type -/
  | unknownNodeType (shown : String)
deriving DecidableEq, Repr

namespace Json

theorem sizeOf_lt_of_valueOf? {name : String} {members : List (String × Json)} {j : Json}
    (h : valueOf? name members = some j) : sizeOf j < sizeOf (Json.object members) := by
  induction members with
  | nil => simp [valueOf?] at h
  | cons member rest ih =>
    obtain ⟨k, v⟩ := member
    simp only [valueOf?] at h
    split at h
    · cases h
      simp
      omega
    · have := ih h
      simp at this ⊢
      omega

theorem sizeOf_lt_of_mem {items : List Json} {j : Json} (h : j ∈ items) :
    sizeOf j < sizeOf (Json.array items) := by
  have := List.sizeOf_lt_of_mem h
  simp
  omega

/-- A part of `j`: something smaller than it. -/
abbrev Part (j : Json) := { part : Json // sizeOf part < sizeOf j }

/-- A field, if it is there. -/
def field? (j : Json) (name : String) : Except StoredError (Option (Part j)) :=
  match j with
  | .object members =>
    match h : valueOf? name members with
    | some part => .ok (some ⟨part, sizeOf_lt_of_valueOf? h⟩)
    | none => .ok none
  | _ => .error .notARecord

/-- A field that must be there. -/
def field (j : Json) (name : String) : Except StoredError (Part j) :=
  match j with
  | .object members =>
    match h : valueOf? name members with
    | some part => .ok ⟨part, sizeOf_lt_of_valueOf? h⟩
    | none => .error (.missingField name)
  | _ => .error .wrongKind

/-- The items of a list. Those of a text or a record are texts, of which the first one is an error:
    `textError` tells which. -/
def parts (j : Json) (textError : String → StoredError) : Except StoredError (List (Part j)) :=
  match j with
  | .array items => .ok (items.attach.map fun ⟨part, h⟩ => ⟨part, sizeOf_lt_of_mem h⟩)
  | .text s =>
    match s.toList with
    | [] => .ok []
    | c :: _ => .error (textError (String.ofList [c]))
  | .object members =>
    match members with
    | [] => .ok []
    | (name, _) :: _ => .error (textError name)
  | _ => .error .wrongKind

/-- The items of a list of labels. -/
def labels : Json → Except StoredError (List Label)
  | .array items => .ok items
  | .text s => .ok (s.toList.map fun c => .text (String.ofList [c]))
  | .object members => .ok (members.map fun (name, _) => .text name)
  | _ => .error .wrongKind

/-- The items of a list of labels in a field, which may be missing or stand for nothing. -/
def labelsField (j : Json) (name : String) : Except StoredError (List Label) := do
  match ← j.field? name with
  | none => return []
  | some part => if part.1.isNothing then return [] else part.1.labels

/-- The items of a list in a field, which may be missing or stand for nothing. -/
def partsField (j : Json) (name : String) (textError : String → StoredError) :
    Except StoredError (List (Part j)) := do
  match ← j.field? name with
  | none => return []
  | some part =>
    if part.1.isNothing then return []
    else return (← part.1.parts textError).map fun inner =>
      ⟨inner.1, Nat.lt_trans inner.2 part.2⟩

/-- Whether a list or a text has some text in it. -/
def mentions (name : String) : Json → Bool
  | .text s => occursIn name.toList s.toList
  | .array items => items.any fun item => item.text? == some name
  | _ => false

end Json

end BlockTemplate
