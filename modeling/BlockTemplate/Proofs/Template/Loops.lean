import BlockTemplate.Proofs.Render.Preservation
import BlockTemplate.Proofs.Template.Compile
import BlockTemplate.Proofs.Template.Descent

/-!
# The loops of a template

All loops in a node, at any depth. Whatever a name leads to has no loops but those of the template,
and the loops of a compiled template are as some header was parsed.

## Key results

- `CompiledTemplate.allLoops_locate`: the loops of what a name leads to
- `exists_parse?_of_mem_allLoops`: the loops of a compiled template
-/

namespace BlockTemplate

mutual

/-- The headers of all loops in a node. -/
def Node.allLoops : Node → List LoopHeader
  | .data _ => []
  | .block _ children => childrenAllLoops children
  | .loop header children => header :: childrenAllLoops children
  | .conditional _ ifChildren elseChildren =>
    childrenAllLoops ifChildren ++ childrenAllLoops elseChildren

def childrenAllLoops : List (Key × Node) → List LoopHeader
  | [] => []
  | (_, node) :: rest => node.allLoops ++ childrenAllLoops rest

end

/-- The headers of all loops at a place. -/
def Place.allLoops : Place → List LoopHeader
  | .node n => n.allLoops
  | .level nodes => childrenAllLoops nodes

section
variable {header : LoopHeader}

theorem mem_childrenAllLoops {children : List (Key × Node)} :
    header ∈ childrenAllLoops children ↔ ∃ entry ∈ children, header ∈ entry.2.allLoops := by
  have hflat : childrenAllLoops children = children.flatMap fun entry => entry.2.allLoops := by
    induction children with
    | nil => rfl
    | cons entry rest ih => rw [childrenAllLoops, ih, List.flatMap_cons]
  rw [hflat, List.mem_flatMap]

mutual

theorem Node.loops_subset_allLoops (node : Node) : node.loops ⊆ node.allLoops := by
  match node with
  | .data _ => exact List.nil_subset _
  | .block _ _ => exact List.nil_subset _
  | .loop header children => exact List.cons_subset_cons _ (childrenLoops_subset_all children)
  | .conditional _ ifChildren elseChildren =>
    exact List.append_subset.2
      ⟨List.Subset.trans (childrenLoops_subset_all ifChildren) (List.subset_append_left _ _),
        List.Subset.trans (childrenLoops_subset_all elseChildren) (List.subset_append_right _ _)⟩

theorem childrenLoops_subset_all (children : List (Key × Node)) :
    childrenLoops children ⊆ childrenAllLoops children := by
  match children with
  | [] => exact List.nil_subset _
  | (_, node) :: rest =>
    exact List.append_subset.2
      ⟨List.Subset.trans node.loops_subset_allLoops (List.subset_append_left _ _),
        List.Subset.trans (childrenLoops_subset_all rest) (List.subset_append_right _ _)⟩

end

/-! ## Places -/

/-- The loops below a node are loops of the node. -/
theorem passesDown_allLoops (headers : List LoopHeader) :
    PassesDown fun node => node.allLoops ⊆ headers := by
  have hchildren {children : List (Key × Node)} (h : childrenAllLoops children ⊆ headers) :
      ∀ entry ∈ children, entry.2.allLoops ⊆ headers := fun entry hentry header hheader =>
    h (mem_childrenAllLoops.2 ⟨entry, hentry, hheader⟩)
  exact {
    block := fun h => hchildren h
    loop := fun h => hchildren (List.Subset.trans (List.subset_cons_self _ _) h)
    conditional := fun h => (List.append_subset.1 h).imp hchildren hchildren }

/-- The loops of what a name leads to are loops of the template. -/
theorem CompiledTemplate.allLoops_locate {t : CompiledTemplate} {name : String}
    {found : BlockPath × Place} (hfound : t.locate name = .ok (some found)) :
    found.2.allLoops ⊆ childrenAllLoops t.blocks := by
  have hroots : ∀ entry ∈ t.blocks, entry.2.allLoops ⊆ childrenAllLoops t.blocks :=
    fun entry hentry header hheader => mem_childrenAllLoops.2 ⟨entry, hentry, hheader⟩
  have hplace := CompiledTemplate.satisfies_locate (passesDown_allLoops _) hroots hfound
  match found.2, hplace with
  | .node n, hplace => exact hplace
  | .level nodes, hplace =>
    intro header hheader
    obtain ⟨entry, hentry, hheader⟩ := mem_childrenAllLoops.1 hheader
    exact hplace entry hentry hheader

/-! ## Compiled templates -/

theorem holdsOfParts_loops {P : LoopHeader → Prop}
    (h : ∀ text header, LoopHeader.parse? text = some header → P header) :
    HoldsOfParts fun node => ∀ header ∈ node.allLoops, P header where
  data _ := fun _ hheader => nomatch hheader
  block _ _ _ hchildren := by
    intro header hheader
    obtain ⟨entry, hentry, hheader⟩ := mem_childrenAllLoops.1 hheader
    exact hchildren entry hentry header hheader
  loop text header children hparse _ hchildren := by
    rw [Node.allLoops, List.forall_mem_cons]
    refine ⟨h text header hparse, fun header hheader => ?_⟩
    obtain ⟨entry, hentry, hheader⟩ := mem_childrenAllLoops.1 hheader
    exact hchildren entry hentry header hheader
  conditional _ _ _ _ _ _ hif _ helse := by
    rw [Node.allLoops, List.forall_mem_append]
    refine ⟨fun header hheader => ?_, fun header hheader => ?_⟩
    · obtain ⟨entry, hentry, hheader⟩ := mem_childrenAllLoops.1 hheader
      exact hif entry hentry header hheader
    · obtain ⟨entry, hentry, hheader⟩ := mem_childrenAllLoops.1 hheader
      exact helse entry hentry header hheader

/-- What holds of parsed headers holds of the loops of a compiled template. -/
theorem forall_mem_allLoops {P : LoopHeader → Prop}
    (h : ∀ text header, LoopHeader.parse? text = some header → P header) {code : List Char}
    {t : CompiledTemplate} (ht : compileTemplate code = .ok t) :
    ∀ header ∈ childrenAllLoops t.blocks, P header := by
  intro header hheader
  obtain ⟨entry, hentry, hheader⟩ := mem_childrenAllLoops.1 hheader
  exact ((forall_blocks_of_compileTemplate (holdsOfParts_loops h) ht).2 entry hentry).1 header
    hheader

end

end BlockTemplate
