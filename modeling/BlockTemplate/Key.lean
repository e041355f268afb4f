import BlockTemplate.Number.Text
import BlockTemplate.Text.Order

/-!
# Keys

Keys of mappings, of variables and of the nodes in a template. Those that a template can write are
texts and integers; the host, and what is read from files, may bring other scalars along.

Keys are told apart by their value: `Key.canonical` picks one of the keys that count as one.
-/

namespace BlockTemplate

/-- A key. The text `1` and the integer `1` are different keys. -/
inductive Key where
  | text (s : String)
  | int (n : Int)
  | bool (b : Bool)
  | real (x : Binary64)
  | null
deriving DecidableEq, Repr, Inhabited

namespace Key

/-- The key with the same value that stands for all of them: truth values and whole numbers count
    as integers. -/
def canonical : Key → Key
  | .bool b => .int b.toNat
  | .real x => match x.toInt? with
    | some n => .int n
    | none => .real x
  | key => key

/-- Keys are equal if their values are. -/
instance : BEq Key := ⟨fun a b => a.canonical = b.canonical⟩

theorem beq_iff_canonical_eq {a b : Key} : a == b ↔ a.canonical = b.canonical := decide_eq_true_iff

instance : EquivBEq Key where
  rfl := beq_iff_canonical_eq.2 rfl
  symm h := beq_iff_canonical_eq.2 (beq_iff_canonical_eq.1 h).symm
  trans h₁ h₂ :=
    beq_iff_canonical_eq.2 ((beq_iff_canonical_eq.1 h₁).trans (beq_iff_canonical_eq.1 h₂))

/-- Texts are one key only if they are the same text. -/
@[simp] theorem text_beq_text (s t : String) : (Key.text s == Key.text t) = (s == t) := by
  rw [Bool.eq_iff_iff, beq_iff_canonical_eq]
  simp [canonical]

/-- Integers are one key only if they are the same integer. -/
@[simp] theorem int_beq_int (m n : Int) : (Key.int m == Key.int n) = (m == n) := by
  rw [Bool.eq_iff_iff, beq_iff_canonical_eq]
  simp [canonical]

@[simp] theorem text_beq_int (s : String) (n : Int) : (Key.text s == Key.int n) = false := by
  simp [Bool.eq_false_iff, beq_iff_canonical_eq, canonical]

@[simp] theorem int_beq_text (n : Int) (s : String) : (Key.int n == Key.text s) = false := by
  simp [Bool.eq_false_iff, beq_iff_canonical_eq, canonical]

/-- Lists of keys are equal if their keys are, one by one. -/
theorem list_beq_iff_canonical_eq {a b : List Key} :
    a == b ↔ a.map canonical = b.map canonical := by
  induction a generalizing b with
  | nil => cases b <;> simp
  | cons x xs ih =>
    cases b with
    | nil => simp
    | cons y ys => simp [ih, beq_iff_canonical_eq]

instance : EquivBEq (List Key) where
  rfl := list_beq_iff_canonical_eq.2 rfl
  symm h := list_beq_iff_canonical_eq.2 (list_beq_iff_canonical_eq.1 h).symm
  trans h₁ h₂ :=
    list_beq_iff_canonical_eq.2
      ((list_beq_iff_canonical_eq.1 h₁).trans (list_beq_iff_canonical_eq.1 h₂))

/-- Equal keys are in the same lists. -/
theorem contains_congr {keys : List Key} {key other : Key} (h : key == other) :
    keys.contains key = keys.contains other := by
  induction keys with
  | nil => rfl
  | cons first rest ih => rw [List.contains_cons, List.contains_cons, ih, BEq.congr_left h]

/-- The name of a truth value. -/
def boolName (b : Bool) : String := if b then "True" else "False"

/-- The name of null. -/
def nullName : String := "None"

/-- The plain text of a key. -/
def plain : Key → String
  | .text s => s
  | .int n => intText n
  | .bool b => boolName b
  | .real x => (Number.float x).literal
  | .null => nullName

/-- The text that a key is. -/
def text? : Key → Option String
  | .text s => some s
  | _ => none

/-- The number that a key counts as. -/
def number? : Key → Option Number
  | .int n => some (.int n)
  | .bool b => some (.int b.toNat)
  | .real x => some (.float x)
  | _ => none

/-- Keys in their order: texts have one, and numbers have one, but there is none between the two,
    and null has none at all. -/
def sorted? (keys : List Key) : Option (List Key) :=
  if keys.length ≤ 1 then some keys
  else if keys.all (·.text?.isSome) then some (sortedBy Key.plain keys)
  else if keys.all (·.number?.isSome) then
    some (keys.mergeSort fun a b =>
      (a.number?.getD default).compare (b.number?.getD default) != .gt)
  else none

end Key

end BlockTemplate
