import BlockTemplate.Proofs.Outcome
import BlockTemplate.Render.Node

/-!
# Outlines

What blocks have accumulated plays no part in what a node reads and decides. So a node can be
outlined from the variables alone: the outline lists the texts that the node renders itself and the
places at which it reaches a block, in their order. A loop has the places in its body once for each
entry, and a conditional has those in the branch that is taken.

## Key results

- `allPlaces_outlineChildren`: what is reached within a block lies below the block
-/

namespace BlockTemplate

/-- A part of what a node renders. -/
inductive Part where
  | own (text : String)
  /-- a place at which the block at a path is reached -/
  | place (path : BlockPath)
deriving DecidableEq, Repr

/-- A computation that reads and binds variables. -/
abbrev Outlining := StateT (List (Key × Value)) (Except RenderError)

namespace Outlining

/-- Compute something in the present context. -/
def inContext {α : Type} (host : Host) (f : Context → Except RenderError α) : Outlining α :=
  fun vars => (f ⟨vars, host.callbacks, host.globals⟩).map fun a => (a, vars)

/-- Bind a variable to a value. -/
def bindLabel (label : Label) (v : Value) : Outlining Unit := do
  match label.key? with
  | some name => modify (upsert name v)
  | none => throw (.label .notAKey)

/-- Bind the variables of a loop to an entry. -/
def bindEntry (header : LoopHeader) (entry : Key × Value) : Outlining Unit := do
  bindLabel header.valueVar entry.2
  match header.boundKey? with
  | some label => bindLabel label entry.1.toValue
  | none => return

/-- Outline the body of a loop for each of its entries. -/
def entries (header : LoopHeader) (body : Outlining (List Part)) :
    List (Key × Value) → Outlining (List Part)
  | [] => return []
  | entry :: rest => do
    bindEntry header entry
    return (← body) ++ (← entries header body rest)

end Outlining

mutual

/-- Outline the node at a path. -/
def Node.outline (host : Host) (path : BlockPath) : Node → Outlining (List Part)
  | .data chunks => do
    return [.own (← Outlining.inContext host fun ctx => chunksText ctx chunks)]
  | .block _ _ => return [.place path]
  | .loop header children => do
    let collection ← Outlining.inContext host fun ctx => header.collection.resolve ctx
    if collection.breaksPromise then throw .notIterable
    match collection.loopEntries? with
    | none => return []
    | some entries =>
      if children.isEmpty then return []
      else Outlining.entries header (outlineChildren host path children) entries
  | .conditional condition ifChildren elseChildren => do
    if ← Outlining.inContext host fun ctx => condition.holds ctx then
      outlineChildren host (path ++ [.int 0]) ifChildren
    else outlineChildren host (path ++ [.int 1]) elseChildren

/-- Outline children one after the other. -/
def outlineChildren (host : Host) (path : BlockPath) : List (Key × Node) → Outlining (List Part)
  | [] => return []
  | (key, node) :: rest => do
    return (← node.outline host (path ++ [key])) ++ (← outlineChildren host path rest)

end

/-! ## Places -/

namespace Outlining

variable {α : Type} {P : BlockPath → Prop}

/-- Whether all places in what is outlined have a property. -/
def AllPlaces (P : BlockPath → Prop) (o : Outlining (List Part)) : Prop :=
  ∀ vars parts after, o.run vars = .ok (parts, after) → ∀ path, .place path ∈ parts → P path

theorem AllPlaces.mono {Q : BlockPath → Prop} {o : Outlining (List Part)} (h : AllPlaces P o)
    (himp : ∀ path, P path → Q path) : AllPlaces Q o := by
  intro vars parts after hrun path hpath
  exact himp path (h vars parts after hrun path hpath)

theorem exists_of_run_bind_eq_ok {β : Type} {o : Outlining α} {f : α → Outlining β}
    {vars after : List (Key × Value)} {b : β} (h : (o >>= f).run vars = .ok (b, after)) :
    ∃ a between, o.run vars = .ok (a, between) ∧ (f a).run between = .ok (b, after) := by
  rw [StateT.run_bind] at h
  obtain ⟨⟨a, between⟩, ho, hf⟩ := exists_of_bind_eq_ok h
  exact ⟨a, between, ho, hf⟩

theorem AllPlaces.nothing : AllPlaces P (pure []) := by
  intro vars parts after h path hpath
  cases h
  exact nomatch hpath

theorem AllPlaces.bind {o : Outlining α} {f : α → Outlining (List Part)}
    (h : ∀ a, AllPlaces P (f a)) : AllPlaces P (o >>= f) := by
  intro vars parts after hrun
  obtain ⟨a, between, -, hf⟩ := exists_of_run_bind_eq_ok hrun
  exact h a between parts after hf

theorem AllPlaces.append {o o' : Outlining (List Part)} (h : AllPlaces P o) (h' : AllPlaces P o') :
    AllPlaces P (do return (← o) ++ (← o')) := by
  intro vars parts after hrun path hpath
  obtain ⟨first, between, hfirst, hrun⟩ := exists_of_run_bind_eq_ok hrun
  obtain ⟨second, last, hsecond, hrun⟩ := exists_of_run_bind_eq_ok hrun
  cases hrun
  rcases List.mem_append.1 hpath with hpath | hpath
  · exact h vars first between hfirst path hpath
  · exact h' between second after hsecond path hpath

/-- A check that lets the rest go on only where it holds. -/
theorem AllPlaces.unless {c : Prop} [Decidable c] {e : RenderError}
    {f : PUnit → Outlining (List Part)} (h : ∀ u, AllPlaces P (f u)) :
    AllPlaces P (if c then throw e >>= f else f ⟨⟩) := by
  by_cases hc : c
  · rw [if_pos hc]
    exact AllPlaces.bind h
  · rw [if_neg hc]
    exact h ⟨⟩

theorem allPlaces_entries (header : LoopHeader) {body : Outlining (List Part)}
    (h : AllPlaces P body) (rest : List (Key × Value)) :
    AllPlaces P (entries header body rest) := by
  induction rest with
  | nil => exact AllPlaces.nothing
  | cons entry rest ih => exact AllPlaces.bind fun _ => h.append ih

end Outlining

/-- Whether a place lies below another one. -/
def Below (path place : BlockPath) : Prop := path <+: place ∧ place ≠ path

theorem below_of_append_prefix {path place : BlockPath} {key : Key}
    (h : path ++ [key] <+: place) : Below path place := by
  refine ⟨(List.prefix_append path [key]).trans h, ?_⟩
  rintro rfl
  -- a path is shorter than one with a key more
  have hlength := h.length_le
  rw [List.length_append, List.length_singleton] at hlength
  omega

open Outlining

mutual

/-- What is reached in a node is the node or lies below it. -/
theorem Node.allPlaces_outline (host : Host) (path : BlockPath) (node : Node) :
    AllPlaces (path <+: ·) (node.outline host path) := by
  cases node with
  | data chunks =>
    rw [Node.outline]
    refine AllPlaces.bind fun text => ?_
    intro vars parts after h place hplace
    cases h
    exact nomatch List.mem_singleton.1 hplace
  | block name children =>
    rw [Node.outline]
    intro vars parts after h place hplace
    cases h
    cases List.mem_singleton.1 hplace
    exact List.prefix_rfl
  | loop header children =>
    -- every entry reaches the children at the same places
    have hbody : AllPlaces (path <+: ·) (outlineChildren host path children) :=
      (allPlaces_outlineChildren host path children).mono fun _ h => h.1
    rw [Node.outline]
    refine AllPlaces.bind fun collection => AllPlaces.unless fun _ => ?_
    cases collection.loopEntries? with
    | none => exact AllPlaces.nothing
    | some entries =>
      by_cases hempty : children.isEmpty = true
      · simp only [if_pos hempty]
        exact AllPlaces.nothing
      · simp only [if_neg hempty]
        exact allPlaces_entries header hbody entries
  | conditional condition ifChildren elseChildren =>
    -- a branch stands at a place of its own, below that of the conditional
    have hbranch (key : Key) (branch : List (Key × Node))
        (h : AllPlaces (Below (path ++ [key])) (outlineChildren host (path ++ [key]) branch)) :
        AllPlaces (path <+: ·) (outlineChildren host (path ++ [key]) branch) :=
      h.mono fun place hplace => (List.prefix_append path [key]).trans hplace.1
    rw [Node.outline]
    refine AllPlaces.bind fun holds => ?_
    cases holds with
    | true => exact hbranch _ _ (allPlaces_outlineChildren host (path ++ [.int 0]) ifChildren)
    | false => exact hbranch _ _ (allPlaces_outlineChildren host (path ++ [.int 1]) elseChildren)

/-- What is reached within a block lies below the block. -/
theorem allPlaces_outlineChildren (host : Host) (path : BlockPath)
    (children : List (Key × Node)) :
    AllPlaces (Below path) (outlineChildren host path children) := by
  cases children with
  | nil =>
    rw [outlineChildren]
    exact AllPlaces.nothing
  | cons child rest =>
    have hchild := Node.allPlaces_outline host (path ++ [child.1]) child.2
    have hrest := allPlaces_outlineChildren host path rest
    rw [outlineChildren]
    exact (hchild.mono fun place => below_of_append_prefix).append hrest

end

end BlockTemplate
