import Mathlib
import BlockTemplate.Proofs.Template.Parts

/-!
# Decisions

What is rendered of a template is decided by its conditions, of which only the tokens count, and by
its loops with their variables and collections. Where decisions are concerned, children are told
apart by the names of blocks only: numbers, and children without decisions, play no part.

## Key results

- `childrenDecisions_ofEntries_congr`: the decisions of children follow from those that they are set
  with, by names of blocks
-/

namespace BlockTemplate

/-- A condition or a loop of a template. -/
inductive Decision where
  | condition (tokens : List Token)
  | loop (header : LoopHeader)

/-- The number of tokens of a condition; a loop has none. -/
def Decision.tokenCount : Decision → Nat
  | .condition tokens => tokens.length
  | .loop _ => 0

mutual

/-- The conditions and loops of a node, in the order of the nodes. -/
def Node.decisions : Node → List Decision
  | .data _ => []
  | .block _ children => childrenDecisions children
  | .loop header children => .loop header :: childrenDecisions children
  | .conditional condition ifChildren elseChildren =>
    .condition condition.tokens :: (childrenDecisions ifChildren ++ childrenDecisions elseChildren)

def childrenDecisions : List (Key × Node) → List Decision
  | [] => []
  | (_, node) :: rest => node.decisions ++ childrenDecisions rest

end

/-! ## By names of blocks -/

/-- The decisions of a child, with the name of it if it is a block; another child only counts if it
    has decisions. -/
def namedItem (entry : Key × Node) : List (Option String × List Decision) :=
  if entry.1.text? = none ∧ entry.2.decisions.isEmpty then []
  else [(entry.1.text?, entry.2.decisions)]

/-- The decisions of each child. -/
def namedDecisions (nodes : List (Key × Node)) : List (Option String × List Decision) :=
  nodes.flatMap namedItem

/-- Set the decisions of the block with a name, or add those of another child. -/
def setDecisions (items : List (Option String × List Decision)) :
    Option String × List Decision → List (Option String × List Decision)
  | (some name, decisions) => upsert (some name) decisions items
  | (none, decisions) => items ++ [(none, decisions)]

theorem namedDecisions_cons (entry : Key × Node) (nodes : List (Key × Node)) :
    namedDecisions (entry :: nodes) = namedItem entry ++ namedDecisions nodes :=
  List.flatMap_cons

theorem namedDecisions_cons_text (name : String) (node : Node) (nodes : List (Key × Node)) :
    namedDecisions ((.text name, node) :: nodes)
      = (some name, node.decisions) :: namedDecisions nodes :=
  rfl

theorem namedDecisions_append (nodes more : List (Key × Node)) :
    namedDecisions (nodes ++ more) = namedDecisions nodes ++ namedDecisions more :=
  List.flatMap_append

/-- Data has no decisions. -/
theorem namedDecisions_dataEntries (number : Nat) (text : List Char) :
    namedDecisions (dataEntries number text) = [] := by
  rw [dataEntries]
  split
  · rfl
  · rfl

theorem namedDecisions_dataEntries_append (number : Nat) (text : List Char)
    (nodes : List (Key × Node)) :
    namedDecisions (dataEntries number text ++ nodes) = namedDecisions nodes := by
  rw [namedDecisions_append, namedDecisions_dataEntries, List.nil_append]

theorem childrenDecisions_eq_flatMap (nodes : List (Key × Node)) :
    childrenDecisions nodes = (namedDecisions nodes).flatMap (·.2) := by
  induction nodes with
  | nil => rfl
  | cons entry rest ih =>
    have hitem : (namedItem entry).flatMap (·.2) = entry.2.decisions := by
      rw [namedItem]
      split
      · rename_i h
        rw [List.isEmpty_iff.1 h.2]
        rfl
      · exact List.flatMap_singleton _ _
    rw [namedDecisions_cons, List.flatMap_append, hitem, childrenDecisions, ih]

/-- A key is a text if it is equal to one. -/
theorem beq_text_iff {key : Key} {name : String} :
    key == .text name ↔ key.text? = some name := by
  cases key with
  | text other => simp [Key.text?]
  | real x =>
    rw [Key.beq_iff_canonical_eq, Key.canonical]
    split <;> simp [Key.text?, Key.canonical]
  | _ => simp [Key.beq_iff_canonical_eq, Key.text?, Key.canonical]

/-- A block takes the place of another one with its name. -/
theorem namedDecisions_upsert_text (name : String) (node : Node) (nodes : List (Key × Node)) :
    namedDecisions (upsert (.text name) node nodes)
      = upsert (some name) node.decisions (namedDecisions nodes) := by
  induction nodes with
  | nil => rfl
  | cons entry rest ih =>
    obtain ⟨key, old⟩ := entry
    rw [upsert]
    split
    · rename_i hkey
      simp [namedDecisions, namedItem, beq_text_iff.1 hkey, upsert]
    · rename_i hkey
      rw [beq_text_iff] at hkey
      rw [namedDecisions_cons, namedDecisions_cons, ih, namedItem]
      split
      · rfl
      · rw [List.singleton_append, List.singleton_append, upsert]
        simp [hkey]

/-! ## Children as they are set -/

/-- Whether all keys are texts or smaller numbers. -/
def AreBelow (number : Nat) (nodes : List (Key × Node)) : Prop :=
  ∀ entry ∈ nodes, (∃ name, entry.1 = .text name) ∨ ∃ n : Nat, n < number ∧ entry.1 = .int n

theorem AreBelow.upsert_text {number : Nat} {nodes : List (Key × Node)} (h : AreBelow number nodes)
    (name : String) (node : Node) : AreBelow number (upsert (.text name) node nodes) := by
  intro entry hentry
  obtain hkey | ⟨old, hold, hkey⟩ := key_of_mem_upsert hentry
  · exact .inl ⟨name, hkey⟩
  · rw [← hkey]
    exact h old hold

/-- A child with the next number is added. -/
theorem AreBelow.upsert_int {number : Nat} {nodes : List (Key × Node)} (h : AreBelow number nodes)
    (node : Node) :
    upsert (.int number) node nodes = nodes ++ [(.int number, node)]
      ∧ AreBelow (number + 1) (upsert (.int number) node nodes) := by
  constructor
  · refine upsert_of_new (fun entry hentry => ?_) node
    obtain ⟨name, hkey⟩ | ⟨n, hn, hkey⟩ := h entry hentry
    · rw [hkey]
      exact Key.text_beq_int _ _
    · rw [hkey, Key.int_beq_int, beq_eq_false_iff_ne]
      omega
  · intro entry hentry
    obtain hkey | ⟨old, hold, hkey⟩ := key_of_mem_upsert hentry
    · exact .inr ⟨number, Nat.lt_succ_self _, hkey⟩
    · rw [← hkey]
      exact (h old hold).imp_right fun ⟨n, hn, hkey⟩ => ⟨n, Nat.lt_succ_of_lt hn, hkey⟩

/-- The decisions of a child with a number are added. -/
theorem foldl_setDecisions_int (items : List (Option String × List Decision)) (number : Int)
    (node : Node) :
    (namedItem (.int number, node)).foldl setDecisions items
      = items ++ namedItem (.int number, node) := by
  rw [namedItem]
  split
  · exact (List.append_nil _).symm
  · rfl

/-- Children are set as their decisions are. -/
theorem namedDecisions_foldl_partEntries (parts : List UnitPart) {number : Nat}
    {nodes : List (Key × Node)} (h : AreBelow number nodes) :
    namedDecisions ((partEntries number parts).foldl (fun map (k, v) => upsert k v map) nodes)
      = (namedDecisions (partEntries number parts)).foldl setDecisions (namedDecisions nodes) := by
  induction parts generalizing number nodes with
  | nil => rfl
  | cons part rest ih =>
    have hint (node : Node) : namedDecisions ((partEntries (number + 1) rest).foldl
          (fun map (k, v) => upsert k v map) (upsert (.int number) node nodes))
        = (namedDecisions ((.int number, node) :: partEntries (number + 1) rest)).foldl
          setDecisions (namedDecisions nodes) := by
      obtain ⟨hnew, hbelow⟩ := h.upsert_int node
      have hadded : namedDecisions (upsert (.int number) node nodes)
          = namedDecisions nodes ++ namedItem (.int number, node) := by
        rw [hnew, namedDecisions_append, namedDecisions, namedDecisions, List.flatMap_singleton]
      rw [ih hbelow, hadded, namedDecisions_cons, List.foldl_append, foldl_setDecisions_int]
    cases part with
    | block name markers body =>
      rw [partEntries, List.foldl_cons, UnitPart.key, UnitPart.nextNumber,
        ih (h.upsert_text name _), namedDecisions_upsert_text, namedDecisions_cons_text,
        List.foldl_cons, setDecisions]
    | _ => exact hint _

/-- The decisions of children follow from those that they are set with. -/
theorem childrenDecisions_ofEntries_congr {parts others : List UnitPart}
    (h : namedDecisions (partEntries 0 parts) = namedDecisions (partEntries 0 others)) :
    childrenDecisions (ofEntries (partEntries 0 parts))
      = childrenDecisions (ofEntries (partEntries 0 others)) := by
  have hbelow : AreBelow 0 [] := List.forall_mem_nil _
  rw [childrenDecisions_eq_flatMap, childrenDecisions_eq_flatMap, ofEntries, ofEntries,
    namedDecisions_foldl_partEntries parts hbelow, namedDecisions_foldl_partEntries others hbelow,
    h]

end BlockTemplate
