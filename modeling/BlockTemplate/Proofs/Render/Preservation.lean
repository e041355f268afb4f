import BlockTemplate.Render.Node

/-!
# What rendering preserves

Rendering changes the state in two ways: the loops bind their variables, and the blocks that are
reached forget what they have accumulated. A property of the state that survives both survives
rendering, whether that gives a text or fails on the way.

## Key results

- `Node.render_preserves`, `renderChildren_preserves`: what the loops and the blocks preserve,
  rendering preserves
-/

namespace BlockTemplate

mutual

/-- The headers of the loops in a node, those within blocks apart. -/
def Node.loops : Node → List LoopHeader
  | .data _ => []
  | .block _ _ => []
  | .loop header children => header :: childrenLoops children
  | .conditional _ ifChildren elseChildren => childrenLoops ifChildren ++ childrenLoops elseChildren

def childrenLoops : List (Key × Node) → List LoopHeader
  | [] => []
  | (_, node) :: rest => node.loops ++ childrenLoops rest

end

mutual

/-- The paths of the blocks in the node at a path, with no block between. -/
def Node.innerBlocks (path : BlockPath) : Node → List BlockPath
  | .data _ => []
  | .block _ _ => [path]
  | .loop _ children => childrenInnerBlocks path children
  | .conditional _ ifChildren elseChildren =>
    childrenInnerBlocks (path ++ [.int 0]) ifChildren
      ++ childrenInnerBlocks (path ++ [.int 1]) elseChildren

/-- The paths of the blocks in the children of the node at a path, with no block between. -/
def childrenInnerBlocks (path : BlockPath) : List (Key × Node) → List BlockPath
  | [] => []
  | (key, node) :: rest => node.innerBlocks (path ++ [key]) ++ childrenInnerBlocks path rest

end

/-- Whether a rendering keeps a property of the state, even if it fails, and its results have a
    property if the state has its own. -/
def Rendering.Preserves {α : Type} (I : RenderState → Prop) (P : α → Prop) (r : Rendering α) :
    Prop :=
  ∀ s, I s → I (r.run.run s).2 ∧ ∀ a, (r.run.run s).1 = .ok a → P a

namespace Rendering

variable {α β : Type} {I : RenderState → Prop} {P : α → Prop} {Q : β → Prop}

theorem Preserves.pure {a : α} (h : P a) : Preserves I P (pure a) := by
  intro s hs
  refine ⟨hs, fun b hb => ?_⟩
  cases hb
  exact h

theorem Preserves.throw (e : RenderError) : Preserves I P (throw e) :=
  fun _ hs => ⟨hs, fun _ ha => nomatch ha⟩

theorem Preserves.bind {r : Rendering α} {f : α → Rendering β} (hr : r.Preserves I P)
    (hf : ∀ a, P a → (f a).Preserves I Q) : Preserves I Q (r >>= f) := by
  intro s hs
  obtain ⟨hstate, hresult⟩ := hr s hs
  have hbind : (r >>= f).run.run s
      = (ExceptT.bindCont f (r.run.run s).1).run (r.run.run s).2 := rfl
  rw [hbind]
  cases houtcome : (r.run.run s).1 with
  | ok a => exact hf a (hresult a houtcome) _ hstate
  | error e => exact ⟨hstate, fun b hb => nomatch hb⟩

/-- A check that lets the rest go on only where it holds. -/
theorem preserves_unless {c : Prop} [Decidable c] {e : RenderError} {f : PUnit → Rendering β}
    (h : ∀ u, (f u).Preserves I Q) : Preserves I Q (if c then throw e >>= f else f ⟨⟩) := by
  by_cases hc : c
  · rw [if_pos hc]
    exact (Preserves.throw (P := fun _ => True) e).bind fun u _ => h u
  · rw [if_neg hc]
    exact h ⟨⟩

theorem preserves_inContext {host : Host} {f : Context → Except RenderError α}
    (h : ∀ s, I s → ∀ a, f (s.context host) = .ok a → P a) :
    (inContext host f).Preserves I P :=
  fun s hs => ⟨hs, h s hs⟩

theorem preserves_bindLabel {label : Label} {v : Value}
    (h : ∀ key ∈ label.key?, ∀ s, I s → I (s.bindVar key v)) :
    (bindLabel label v).Preserves I fun _ => True := by
  rw [bindLabel]
  cases hkey : label.key? with
  | none => exact Preserves.throw _
  | some name => exact fun s hs => ⟨h name hkey s hs, fun _ _ => trivial⟩

theorem preserves_bindEntry {header : LoopHeader} {entry : Key × Value}
    (hvalue : ∀ key ∈ header.valueVar.key?, ∀ s, I s → I (s.bindVar key entry.2))
    (hkey : ∀ label ∈ header.boundKey?, ∀ key ∈ label.key?, ∀ s, I s →
      I (s.bindVar key entry.1.toValue)) :
    (header.bindEntry entry).Preserves I fun _ => True := by
  refine (preserves_bindLabel hvalue).bind fun _ _ => ?_
  cases hlabel : header.boundKey? with
  | none => exact Preserves.pure trivial
  | some label => exact preserves_bindLabel (hkey label hlabel)

theorem Preserves.append {r r' : Rendering String} (h : r.Preserves I fun _ => True)
    (h' : r'.Preserves I fun _ => True) :
    Preserves I (fun _ => True) (do return (← r) ++ (← r')) :=
  h.bind fun _ _ => h'.bind fun _ _ => Preserves.pure trivial

theorem preserves_renderEntries {header : LoopHeader} {body : Rendering String}
    (hbody : body.Preserves I fun _ => True) {entries : List (Key × Value)}
    (h : ∀ entry ∈ entries, (header.bindEntry entry).Preserves I fun _ => True) :
    (renderEntries header body entries).Preserves I fun _ => True := by
  induction entries with
  | nil => exact Preserves.pure trivial
  | cons entry rest ih =>
    rw [List.forall_mem_cons] at h
    exact h.1.bind fun _ _ => hbody.append (ih h.2)

/-- Reaching a block clears it. -/
theorem preserves_takeBuffer {path : BlockPath} (h : ∀ s, I s → I (s.clear path)) :
    (takeBuffer path).Preserves I fun _ => True :=
  fun s hs => ⟨h s hs, fun _ _ => trivial⟩

end Rendering

open Rendering

/-- Whether a loop preserves a property of the state when it binds its variables to an entry of what
    it goes through. -/
def LoopHeader.Preserves (host : Host) (I : RenderState → Prop) (header : LoopHeader) : Prop :=
  ∀ s, I s → ∀ collection, header.collection.resolve (s.context host) = .ok collection →
    ∀ entries, collection.loopEntries? = some entries → ∀ entry ∈ entries,
      (header.bindEntry entry).Preserves I fun _ => True

section
variable {host : Host} {I : RenderState → Prop}

mutual

/-- What the loops and the blocks in a node preserve, rendering it preserves. -/
theorem Node.render_preserves {path : BlockPath} {node : Node}
    (hloops : ∀ header ∈ node.loops, header.Preserves host I)
    (hblocks : ∀ place ∈ node.innerBlocks path, ∀ s, I s → I (s.clear place)) :
    (node.render host path).Preserves I fun _ => True := by
  cases node with
  | data chunks =>
    rw [Node.render]
    exact preserves_inContext fun _ _ _ _ => trivial
  | block name children =>
    rw [Node.render]
    exact preserves_takeBuffer (hblocks path (List.mem_singleton_self path))
  | loop header children =>
    rw [Node.loops, List.forall_mem_cons] at hloops
    -- the collection is resolved in a state of the property, and bound in later ones
    have hresolve : (inContext host fun ctx => header.collection.resolve ctx).Preserves I
        fun collection => ∀ entries, collection.loopEntries? = some entries →
          ∀ entry ∈ entries, (header.bindEntry entry).Preserves I fun _ => True :=
      preserves_inContext hloops.1
    rw [Node.render]
    refine hresolve.bind fun collection hcollection => ?_
    refine preserves_unless fun _ => ?_
    cases hentries : collection.loopEntries? with
    | none => exact Preserves.pure trivial
    | some entries =>
      have hbody : (renderChildren host path children).Preserves I fun _ => True :=
        renderChildren_preserves hloops.2 hblocks
      by_cases hempty : children.isEmpty = true
      · simp only [if_pos hempty]
        exact Preserves.pure trivial
      · simp only [if_neg hempty]
        exact preserves_renderEntries hbody (hcollection entries hentries)
  | conditional condition ifChildren elseChildren =>
    rw [Node.loops, List.forall_mem_append] at hloops
    rw [Node.innerBlocks, List.forall_mem_append] at hblocks
    rw [Node.render]
    refine (preserves_inContext (P := fun _ => True) fun _ _ _ _ => trivial).bind fun holds _ => ?_
    cases holds with
    | true => exact renderChildren_preserves hloops.1 hblocks.1
    | false => exact renderChildren_preserves hloops.2 hblocks.2

/-- What the loops and the blocks among children preserve, rendering these preserves. -/
theorem renderChildren_preserves {path : BlockPath} {children : List (Key × Node)}
    (hloops : ∀ header ∈ childrenLoops children, header.Preserves host I)
    (hblocks : ∀ place ∈ childrenInnerBlocks path children, ∀ s, I s → I (s.clear place)) :
    (renderChildren host path children).Preserves I fun _ => True := by
  cases children with
  | nil =>
    rw [renderChildren]
    exact Preserves.pure trivial
  | cons child rest =>
    rw [childrenLoops, List.forall_mem_append] at hloops
    rw [childrenInnerBlocks, List.forall_mem_append] at hblocks
    rw [renderChildren]
    exact (Node.render_preserves hloops.1 hblocks.1).append
      (renderChildren_preserves hloops.2 hblocks.2)

end

end

end BlockTemplate
