import BlockTemplate.Proofs.Template.Canonical
import BlockTemplate.Proofs.Template.Parts
import BlockTemplate.Template.Source

/-!
# Literal text in compiled units

Compiling keeps the literal text of a unit, and keeps it in order: what the data of the nodes comes
to is the text of the unit without its markers. Of two blocks of one name next to each other only
the last is kept, at the place of the first.

## Key results

- `childrenLiteral_compileUnit`: the literal text of a compiled unit is that of the parts of its
  text
- `childrenLiteral_ne_partsLiteral`: a block that is defined twice loses its first body
-/

namespace BlockTemplate

/-- The literal text of nodes, tags included, in the order of the nodes. -/
def childrenLiteral (nodes : Children) : List Char :=
  (childrenDataTexts nodes).flatMap fun chunks => (chunksSource chunks).toList

/-- The literal text of a node. -/
def Node.literal (node : Node) : List Char :=
  node.dataTexts.flatMap fun chunks => (chunksSource chunks).toList

mutual

/-- A part without the markers in it. -/
def UnitPart.literal : UnitPart → List Char
  | .text chars => chars
  | .block _ _ body | .loop _ _ body => partsLiteral body
  | .conditional _ _ ifBody elseBody => partsLiteral ifBody ++ partsLiteral elseBody

/-- The text that consists of parts, without all markers. -/
def partsLiteral : List UnitPart → List Char
  | [] => []
  | part :: rest => part.literal ++ partsLiteral rest

end

mutual

/-- A part with only the last of blocks of one name that are next to each other in it. -/
def UnitPart.remaining : UnitPart → UnitPart
  | .text chars => .text chars
  | .block name markers body => .block name markers ((ofEntries (keyedRemaining 0 body)).map (·.2))
  | .loop header markers body =>
    .loop header markers ((ofEntries (keyedRemaining 0 body)).map (·.2))
  | .conditional condition markers ifBody elseBody =>
    .conditional condition markers ((ofEntries (keyedRemaining 0 ifBody)).map (·.2))
      ((ofEntries (keyedRemaining 0 elseBody)).map (·.2))

/-- What remains in parts, each by the key of its child. -/
def keyedRemaining (number : Nat) : List UnitPart → List (Key × UnitPart)
  | [] => []
  | part :: rest =>
    (part.key number, part.remaining) :: keyedRemaining (part.nextNumber number) rest

end

/-- The parts of which something remains: of blocks of one name only the last, at the place of the
    first. -/
def remainingParts (parts : List UnitPart) : List UnitPart :=
  (ofEntries (keyedRemaining 0 parts)).map (·.2)

/-! ## Literal text by entries -/

theorem childrenLiteral_eq_flatMap (nodes : Children) :
    childrenLiteral nodes = (mapValues Node.literal nodes).flatMap (·.2) := by
  induction nodes with
  | nil => rfl
  | cons entry rest ih =>
    rw [childrenLiteral, childrenDataTexts, List.flatMap_append]
    exact congrArg (entry.2.literal ++ ·) ih

theorem partsLiteral_eq_flatMap (entries : List (Key × UnitPart)) :
    partsLiteral (entries.map (·.2)) = (mapValues UnitPart.literal entries).flatMap (·.2) := by
  induction entries with
  | nil => rfl
  | cons entry rest ih => exact congrArg (entry.2.literal ++ ·) ih

/-- The keys decide which children remain, and which parts. -/
theorem childrenLiteral_ofEntries {nodes : Children} {entries : List (Key × UnitPart)}
    (h : mapValues Node.literal nodes = mapValues UnitPart.literal entries) :
    childrenLiteral (ofEntries nodes) = partsLiteral ((ofEntries entries).map (·.2)) := by
  rw [childrenLiteral_eq_flatMap, partsLiteral_eq_flatMap, ← ofEntries_mapValues,
    ← ofEntries_mapValues, h]

mutual

/-- A node has the literal text of what remains of the part that it is compiled from. -/
theorem UnitPart.literal_node : ∀ part : UnitPart, part.node.literal = part.remaining.literal
  | .text chars => by
    rw [UnitPart.node, Node.literal, Node.dataTexts, List.flatMap_singleton,
      toList_chunksSource_dataChunks]
    rfl
  | .block name markers body => childrenLiteral_ofEntries (literal_partEntries 0 body)
  | .loop header markers body => childrenLiteral_ofEntries (literal_partEntries 0 body)
  | .conditional condition markers ifBody elseBody => by
    have hif := childrenLiteral_ofEntries (literal_partEntries 0 ifBody)
    have helse := childrenLiteral_ofEntries (literal_partEntries 0 elseBody)
    rw [UnitPart.node, Node.literal, Node.dataTexts, List.flatMap_append]
    exact congr (congrArg (· ++ ·) hif) helse

theorem literal_partEntries (number : Nat) : ∀ parts : List UnitPart,
    mapValues Node.literal (partEntries number parts)
      = mapValues UnitPart.literal (keyedRemaining number parts)
  | [] => rfl
  | part :: rest => by
    have hpart := part.literal_node
    have hrest := literal_partEntries (part.nextNumber number) rest
    show (part.key number, part.node.literal) :: mapValues Node.literal _
      = (part.key number, part.remaining.literal) :: mapValues UnitPart.literal _
    rw [hpart, hrest]

end

/-! ## Distinct names -/

theorem keys_keyedRemaining (number : Nat) (parts : List UnitPart) :
    (keyedRemaining number parts).map (·.1) = (partEntries number parts).map (·.1) := by
  induction parts generalizing number with
  | nil => rfl
  | cons part rest ih => exact congrArg (part.key number :: ·) (ih _)

theorem distinctKeys_keyedRemaining {parts : List UnitPart} (h : HaveDistinctNames parts)
    (number : Nat) : DistinctKeys (keyedRemaining number parts) := by
  have hdistinct : ((partEntries number parts).map (·.1)).Pairwise fun a b => (a == b) = false :=
    List.pairwise_map.2 (distinctKeys_partEntries h number)
  rw [← keys_keyedRemaining] at hdistinct
  exact List.pairwise_map.1 hdistinct

mutual

/-- Where names are distinct, all of a part remains. -/
theorem UnitPart.remaining_eq_self :
    ∀ {part : UnitPart}, part.HasDistinctNames → part.remaining = part
  | .text chars, _ => rfl
  | .block name markers body, h => by
    rw [UnitPart.remaining, ofEntries_eq_self (distinctKeys_keyedRemaining h 0),
      map_keyedRemaining 0 h]
  | .loop header markers body, h => by
    rw [UnitPart.remaining, ofEntries_eq_self (distinctKeys_keyedRemaining h 0),
      map_keyedRemaining 0 h]
  | .conditional condition markers ifBody elseBody, ⟨hif, helse⟩ => by
    rw [UnitPart.remaining, ofEntries_eq_self (distinctKeys_keyedRemaining hif 0),
      map_keyedRemaining 0 hif, ofEntries_eq_self (distinctKeys_keyedRemaining helse 0),
      map_keyedRemaining 0 helse]

theorem map_keyedRemaining (number : Nat) : ∀ {parts : List UnitPart}, HaveDistinctNames parts →
    (keyedRemaining number parts).map (·.2) = parts
  | [], _ => rfl
  | part :: rest, ⟨hpart, _, hrest⟩ => by
    have hpart := part.remaining_eq_self hpart
    have hrest := map_keyedRemaining (part.nextNumber number) hrest
    rw [keyedRemaining, List.map_cons, hpart, hrest]

end

theorem remainingParts_eq_self {parts : List UnitPart} (h : HaveDistinctNames parts) :
    remainingParts parts = parts := by
  rw [remainingParts, ofEntries_eq_self (distinctKeys_keyedRemaining h 0), map_keyedRemaining 0 h]

/-! ## Literal text of a unit -/

/-- The literal text of a compiled unit is its text without the markers: all of it if names are
    distinct, and without the bodies of blocks that are defined again otherwise. -/
theorem childrenLiteral_compileUnit {code : List Char} {path : BlockPath} {lineStart : Bool}
    {u : CompiledUnit} (hu : compileUnit code path lineStart = .ok u) :
    ∃ parts, unitParts code lineStart = .ok parts
      ∧ partsSource parts = code ∧ AreMarked parts
      ∧ childrenLiteral u.children = partsLiteral (remainingParts parts)
      ∧ (HaveDistinctNames parts → childrenLiteral u.children = partsLiteral parts) := by
  obtain ⟨parts, hparts, hsource, hmarked, hentries, -⟩ := exists_parts_of_compileUnit hu
  have hliteral : childrenLiteral u.children = partsLiteral (remainingParts parts) := by
    rw [CompiledUnit.children, hentries]
    exact childrenLiteral_ofEntries (literal_partEntries 0 parts)
  refine ⟨parts, hparts, hsource, hmarked, hliteral, fun hdistinct => ?_⟩
  rw [hliteral, remainingParts_eq_self hdistinct]

/-- A unit with a block in a conditional, markers that are alone on their lines and others. -/
def nestedUnitSource : List Char :=
  "a\n <!-- IF x -->\nb<!-- BEGIN: B -->{V}<!-- END: B --> \n<!-- ELSE -->c<!-- ENDIF -->".toList

/-- The text between the markers of a unit is all in its nodes. -/
theorem childrenLiteral_compileUnit_of_nested :
    ∃ u, compileUnit nestedUnitSource [.text "M"] true = .ok u
      ∧ childrenLiteral u.children = "a\nb{V} \nc".toList
      ∧ ∃ parts, unitParts nestedUnitSource true = .ok parts
        ∧ partsSource parts = nestedUnitSource ∧ AreMarked parts
        ∧ childrenLiteral u.children = partsLiteral (remainingParts parts)
        ∧ (HaveDistinctNames parts → childrenLiteral u.children = partsLiteral parts) := by
  have hcompiled : (compileUnit nestedUnitSource [.text "M"] true).map
      (fun u => childrenLiteral u.children) = .ok "a\nb{V} \nc".toList := by cbv
  obtain ⟨u, hu, hliteral⟩ := exists_of_map_eq_ok hcompiled
  exact ⟨u, hu, hliteral, childrenLiteral_compileUnit hu⟩

/-- A unit that defines a block twice. -/
def repeatedSource : List Char :=
  "<!-- BEGIN: A -->x<!-- END: A --><!-- BEGIN: A -->y<!-- END: A -->".toList

/-- A block that is defined twice loses its first body. -/
theorem childrenLiteral_ne_partsLiteral :
    ∃ u parts, compileUnit repeatedSource [.text "M"] true = .ok u
      ∧ unitParts repeatedSource true = .ok parts
      ∧ partsLiteral parts = ['x', 'y'] ∧ childrenLiteral u.children = ['y'] := by
  have hcompiled : (compileUnit repeatedSource [.text "M"] true).map
      (fun u => childrenLiteral u.children) = .ok ['y'] := by cbv
  have hcut : (unitParts repeatedSource true).map partsLiteral = .ok ['x', 'y'] := by cbv
  obtain ⟨u, hu, hliteral⟩ := exists_of_map_eq_ok hcompiled
  obtain ⟨parts, hparts, htext⟩ := exists_of_map_eq_ok hcut
  exact ⟨u, parts, hu, hparts, htext, hliteral⟩

end BlockTemplate
