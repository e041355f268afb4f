import BlockTemplate.Proofs.Reference.Lookups
import BlockTemplate.Proofs.Template.Decisions
import BlockTemplate.Proofs.Template.Descent
import BlockTemplate.Render.Node
import BlockTemplate.Template.Source

/-!
# Rendering with different variables

Without loops nothing is bound, and without conditions the tags in literal text are all that looks
variables up. So what is rendered is the same for two bags of variables that agree on what these
tags look up.

## Key results

- `Node.sameFor_render`, `sameFor_renderChildren`: the same text, or the same error
-/

namespace BlockTemplate

variable {α β : Type} {vars vars' : List (Key × Value)}

/-- Whether a rendering gives the same and leaves the same in the buffers with either bag of
    variables, which it leaves as it is. -/
def Rendering.SameFor (vars vars' : List (Key × Value)) (r : Rendering α) : Prop :=
  ∀ buffers, ∃ outcome after, r.run.run ⟨vars, buffers⟩ = (outcome, ⟨vars, after⟩)
    ∧ r.run.run ⟨vars', buffers⟩ = (outcome, ⟨vars', after⟩)

namespace Rendering

theorem SameFor.pure (a : α) : SameFor vars vars' (pure a) :=
  fun buffers => ⟨.ok a, buffers, rfl, rfl⟩

theorem SameFor.bind {r : Rendering α} {next : α → Rendering β} (hr : SameFor vars vars' r)
    (hnext : ∀ a, SameFor vars vars' (next a)) : SameFor vars vars' (r >>= next) := by
  intro buffers
  obtain ⟨outcome, after, hrun, hrun'⟩ := hr buffers
  have hbind (s : RenderState) : (r >>= next).run.run s
      = (ExceptT.bindCont next (r.run.run s).1).run (r.run.run s).2 := rfl
  rw [hbind, hbind, hrun, hrun']
  cases outcome with
  | error e => exact ⟨.error e, after, rfl, rfl⟩
  | ok a => exact hnext a after

/-- A change of the buffers. -/
theorem SameFor.of_buffers {r : Rendering α} (outcome : Buffers → Except RenderError α)
    (after : Buffers → Buffers)
    (h : ∀ s, r.run.run s = (outcome s.buffers, ⟨s.vars, after s.buffers⟩)) :
    SameFor vars vars' r :=
  fun buffers => ⟨outcome buffers, after buffers, h _, h _⟩

theorem sameFor_inContext (host : Host) {f : Context → Except RenderError α}
    (h : f ⟨vars', host.callbacks, host.globals⟩ = f ⟨vars, host.callbacks, host.globals⟩) :
    SameFor vars vars' (inContext host f) := by
  intro buffers
  have hrun (s : RenderState) : (inContext host f).run.run s = (f (s.context host), s) := rfl
  refine ⟨f ⟨vars, host.callbacks, host.globals⟩, buffers, hrun _, ?_⟩
  rw [hrun, ← h]
  rfl

theorem sameFor_takeBuffer (path : BlockPath) : SameFor vars vars' (takeBuffer path) :=
  .of_buffers (fun buffers => .ok (String.join ((valueOf? path buffers).getD [])))
    (removeKey path) fun _ => rfl

theorem sameFor_accumulate (path : BlockPath) (text : String) :
    SameFor vars vars' (modify (·.accumulate path text)) :=
  .of_buffers (fun _ => .ok ())
    (fun buffers => upsert path ((valueOf? path buffers).getD [] ++ [text]) buffers) fun _ => rfl

end Rendering

open Rendering

/-! ## Nodes without decisions -/

/-- Whether a node has neither loops nor conditions, and two bags of variables agree on what the
    tags in its literal text look up. -/
structure Node.IsSettled (vars vars' : List (Key × Value)) (node : Node) : Prop where
  decisions : node.decisions = []
  agree : ∀ chunks ∈ node.dataTexts, AgreeOn (chunksLookups chunks) vars vars'

theorem isSettled_of_children {children : List (Key × Node)}
    (hdec : childrenDecisions children = [])
    (hagree : ∀ chunks ∈ childrenDataTexts children, AgreeOn (chunksLookups chunks) vars vars') :
    ∀ entry ∈ children, entry.2.IsSettled vars vars' := by
  induction children with
  | nil => exact List.forall_mem_nil _
  | cons entry rest ih =>
    rw [childrenDecisions, List.append_eq_nil_iff] at hdec
    rw [childrenDataTexts, List.forall_mem_append] at hagree
    exact List.forall_mem_cons.2 ⟨⟨hdec.1, hagree.1⟩, ih hdec.2 hagree.2⟩

theorem passesDown_isSettled (vars vars' : List (Key × Value)) :
    PassesDown (Node.IsSettled vars vars') where
  block h := isSettled_of_children h.decisions h.agree
  loop h := nomatch h.decisions
  conditional h := nomatch h.decisions

/-- A settled node is rendered to the same text, or with the same error. -/
theorem Node.sameFor_render (host : Host) (path : BlockPath) {node : Node}
    (h : node.IsSettled vars vars') : SameFor vars vars' (node.render host path) := by
  cases node with
  | data chunks =>
    rw [Node.render]
    exact sameFor_inContext host (chunksText_congr ⟨vars, host.callbacks, host.globals⟩
      (h.agree chunks (List.mem_singleton.2 rfl)))
  | block name children =>
    rw [Node.render]
    exact sameFor_takeBuffer path
  | loop header children => exact nomatch h.decisions
  | conditional condition ifChildren elseChildren => exact nomatch h.decisions

theorem sameFor_renderChildren (host : Host) (path : BlockPath) {children : List (Key × Node)}
    (h : ∀ entry ∈ children, entry.2.IsSettled vars vars') :
    SameFor vars vars' (renderChildren host path children) := by
  induction children with
  | nil =>
    rw [renderChildren]
    exact .pure ""
  | cons entry rest ih =>
    obtain ⟨hentry, hrest⟩ := List.forall_mem_cons.1 h
    rw [renderChildren]
    exact (Node.sameFor_render host (path ++ [entry.1]) hentry).bind fun first =>
      (ih hrest).bind fun others => .pure (first ++ others)

theorem sameFor_parseBlock (host : Host) (path : BlockPath) {children : Children}
    (h : ∀ entry ∈ children, entry.2.IsSettled vars vars') :
    SameFor vars vars' (parseBlock host path children) :=
  (sameFor_renderChildren host path h).bind fun text => sameFor_accumulate path text

end BlockTemplate
