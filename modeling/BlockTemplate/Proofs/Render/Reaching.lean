import BlockTemplate.Proofs.Render.Footprint
import Mathlib

/-!
# Blocks that rendering reaches

A rendering that fails has gone through a part of its nodes. A walk goes through the same nodes from
the variables alone, renders nothing, and keeps the record of the blocks that it has come across
when it stops. Rendering empties the buffers of exactly these blocks, whether it gives a text or
fails on the way.

## Key results

- `renderChildren_follows`: rendering fails where the walk does, and empties what the walk reaches
- `subset_of_walkChildren`: what a walk reaches are blocks among the children
- `RenderState.exists_holds`: whatever the buffers hold is outstanding by some history
-/

namespace BlockTemplate

/-- The variables during a walk, and the blocks that it has reached in their order. -/
structure WalkState where
  vars : List (Key × Value)
  reached : List BlockPath

/-- A computation that goes through nodes. Its record stays when it fails. -/
abbrev Walking := ExceptT RenderError (StateM WalkState)

namespace Walking

/-- Compute something in the present context. -/
def inContext {α : Type} (host : Host) (f : Context → Except RenderError α) : Walking α := do
  ExceptT.mk (pure (f ⟨(← get).vars, host.callbacks, host.globals⟩))

/-- Reach the block at a path. -/
def reach (path : BlockPath) : Walking Unit :=
  modify fun s => { s with reached := s.reached ++ [path] }

/-- Bind a variable to a value. -/
def bindLabel (label : Label) (v : Value) : Walking Unit := do
  match label.key? with
  | some name => modify fun s => { s with vars := upsert name v s.vars }
  | none => throw (.label .notAKey)

/-- Bind the variables of a loop to an entry. -/
def bindEntry (header : LoopHeader) (entry : Key × Value) : Walking Unit := do
  bindLabel header.valueVar entry.2
  match header.boundKey? with
  | some label => bindLabel label entry.1.toValue
  | none => return

/-- Go through the body of a loop for each of its entries. -/
def entries (header : LoopHeader) (body : Walking Unit) : List (Key × Value) → Walking Unit
  | [] => return
  | entry :: rest => do
    bindEntry header entry
    body
    entries header body rest

end Walking

mutual

/-- Go through the node at a path. -/
def Node.walk (host : Host) (path : BlockPath) : Node → Walking Unit
  | .data chunks => do
    let _ ← Walking.inContext host fun ctx => chunksText ctx chunks
  | .block _ _ => Walking.reach path
  | .loop header children => do
    let collection ← Walking.inContext host fun ctx => header.collection.resolve ctx
    if collection.breaksPromise then throw .notIterable
    match collection.loopEntries? with
    | none => return
    | some entries =>
      if children.isEmpty then return
      else Walking.entries header (walkChildren host path children) entries
  | .conditional condition ifChildren elseChildren => do
    if ← Walking.inContext host fun ctx => condition.holds ctx then
      walkChildren host (path ++ [.int 0]) ifChildren
    else walkChildren host (path ++ [.int 1]) elseChildren

/-- Go through children one after the other. -/
def walkChildren (host : Host) (path : BlockPath) : List (Key × Node) → Walking Unit
  | [] => return
  | (key, node) :: rest => do
    node.walk host (path ++ [key])
    walkChildren host path rest

end

/-! ## Rendering and walking -/

variable {α β γ δ : Type}

/-- What a block has accumulated once the blocks at some places have been emptied. -/
def RenderState.bufferBeside (s : RenderState) (places : List BlockPath) (path : BlockPath) :
    List String :=
  if places.any (· == path) then [] else s.buffer path

/-- Whether a rendering gives or fails with what a walk does, apart from the text, binds what it
    binds, and empties the buffers of the blocks that the walk adds to its record. -/
def Rendering.Follows (f : α → β) (r : Rendering α) (w : Walking β) : Prop :=
  ∀ s reached, ∃ more,
    w.run.run ⟨s.vars, reached⟩
        = ((r.run.run s).1.map f, ⟨(r.run.run s).2.vars, reached ++ more⟩)
      ∧ ∀ path, (r.run.run s).2.buffer path = s.bufferBeside more path

/-- A rendering that leaves the buffers alone follows a walk that reaches no block. -/
theorem Rendering.Follows.of_buffers_eq {f : α → β} {r : Rendering α} {w : Walking β}
    (h : ∀ s reached,
      w.run.run ⟨s.vars, reached⟩ = ((r.run.run s).1.map f, ⟨(r.run.run s).2.vars, reached⟩)
        ∧ (r.run.run s).2.buffers = s.buffers) : Follows f r w := by
  intro s reached
  obtain ⟨hrun, hbuffers⟩ := h s reached
  refine ⟨[], by rw [List.append_nil, hrun], fun path => ?_⟩
  rw [RenderState.buffer, hbuffers]
  rfl

namespace Rendering

theorem Follows.pure (f : α → β) (a : α) : Follows f (pure a) (pure (f a)) :=
  .of_buffers_eq fun _ _ => ⟨rfl, rfl⟩

theorem Follows.throw (f : α → β) (e : RenderError) : Follows f (throw e) (throw e) :=
  .of_buffers_eq fun _ _ => ⟨rfl, rfl⟩

theorem Follows.bind {f : α → β} {g : γ → δ} {r : Rendering α} {w : Walking β}
    {next : α → Rendering γ} {step : β → Walking δ} (hr : Follows f r w)
    (hnext : ∀ a, Follows g (next a) (step (f a))) : Follows g (r >>= next) (w >>= step) := by
  intro s reached
  obtain ⟨more, hwalk, hbuffers⟩ := hr s reached
  have hrender : (r >>= next).run.run s
      = (ExceptT.bindCont next (r.run.run s).1).run (r.run.run s).2 := rfl
  have hwalked : (w >>= step).run.run ⟨s.vars, reached⟩
      = (ExceptT.bindCont step (w.run.run ⟨s.vars, reached⟩).1).run
          (w.run.run ⟨s.vars, reached⟩).2 := rfl
  rw [hwalked, hwalk, hrender]
  cases (r.run.run s).1 with
  | error e => exact ⟨more, rfl, hbuffers⟩
  | ok a =>
    obtain ⟨others, hwalk', hbuffers'⟩ := hnext a (r.run.run s).2 (reached ++ more)
    refine ⟨more ++ others, ?_, fun path => ?_⟩
    · rw [← List.append_assoc]
      exact hwalk'
    -- what is emptied first stays empty
    · refine (hbuffers' path).trans ?_
      rw [RenderState.bufferBeside, hbuffers path, RenderState.bufferBeside,
        RenderState.bufferBeside, List.any_append]
      cases more.any (· == path) <;> simp

theorem follows_inContext (host : Host) (f : Context → Except RenderError α) :
    Follows id (inContext host f) (Walking.inContext host f) := by
  refine .of_buffers_eq fun s reached => ?_
  have hrender : (inContext host f).run.run s = (f (s.context host), s) := rfl
  have hwalk : (Walking.inContext host f).run.run ⟨s.vars, reached⟩
      = (f (s.context host), ⟨s.vars, reached⟩) := rfl
  rw [hrender, hwalk, Except.map_id]
  exact ⟨rfl, rfl⟩

theorem follows_bindLabel (label : Label) (v : Value) :
    Follows id (bindLabel label v) (Walking.bindLabel label v) := by
  rw [bindLabel, Walking.bindLabel]
  cases label.key? with
  | none => exact .throw id _
  | some name => exact .of_buffers_eq fun _ _ => ⟨rfl, rfl⟩

theorem follows_bindEntry (header : LoopHeader) (entry : Key × Value) :
    Follows id (header.bindEntry entry) (Walking.bindEntry header entry) := by
  refine (follows_bindLabel header.valueVar entry.2).bind fun _ => ?_
  cases header.boundKey? with
  | none => exact .pure id ()
  | some label => exact follows_bindLabel label entry.1.toValue

/-- Whether a rendering fails where a walk does and empties what that reaches. -/
abbrev FollowsText (r : Rendering String) (w : Walking Unit) : Prop := Follows (fun _ => ()) r w

theorem FollowsText.nothing : FollowsText (pure "") (pure ()) := .pure _ _

/-- A check that lets the rest go on only where it holds. -/
theorem FollowsText.unless {c : Prop} [Decidable c] {e : RenderError}
    {next : PUnit → Rendering String} {step : PUnit → Walking Unit}
    (h : ∀ u, FollowsText (next u) (step u)) :
    FollowsText (if c then throw e >>= next else next ⟨⟩)
      (if c then throw e >>= step else step ⟨⟩) := by
  by_cases hc : c
  · rw [if_pos hc, if_pos hc]
    exact (Follows.throw id e).bind h
  · rw [if_neg hc, if_neg hc]
    exact h ⟨⟩

theorem FollowsText.append {r₁ r₂ : Rendering String} {w₁ w₂ : Walking Unit}
    (h₁ : FollowsText r₁ w₁) (h₂ : FollowsText r₂ w₂) :
    FollowsText (do return (← r₁) ++ (← r₂)) (do w₁; w₂) := by
  have hsecond (first : String) : FollowsText (do return first ++ (← r₂)) w₂ := by
    have hbind := h₂.bind fun second => Follows.pure (fun _ => ()) (first ++ second)
    rw [← bind_pure w₂]
    exact hbind
  exact h₁.bind hsecond

/-- Reaching a block empties its buffer. -/
theorem follows_takeBuffer (path : BlockPath) :
    FollowsText (takeBuffer path) (Walking.reach path) := by
  intro s reached
  refine ⟨[path], rfl, fun other => ?_⟩
  have hrun : (takeBuffer path).run.run s = (.ok (String.join (s.buffer path)), s.clear path) := rfl
  rw [hrun, RenderState.buffer_clear, RenderState.bufferBeside, List.any_cons, List.any_nil,
    Bool.or_false]

theorem follows_renderEntries (header : LoopHeader) {body : Rendering String}
    {walked : Walking Unit} (h : FollowsText body walked) (entries : List (Key × Value)) :
    FollowsText (renderEntries header body entries) (Walking.entries header walked entries) := by
  induction entries with
  | nil => exact .nothing
  | cons entry rest ih => exact (follows_bindEntry header entry).bind fun _ => h.append ih

end Rendering

open Rendering

mutual

/-- Rendering a node fails where the walk does, and empties what that reaches. -/
theorem Node.render_follows (host : Host) (path : BlockPath) (node : Node) :
    FollowsText (node.render host path) (node.walk host path) := by
  cases node with
  | data chunks =>
    rw [Node.render, Node.walk, ← bind_pure (inContext host fun ctx => chunksText ctx chunks)]
    exact (follows_inContext host fun ctx => chunksText ctx chunks).bind fun text => .pure _ text
  -- a block in a block is taken from its buffer, and nothing in it is rendered
  | block name children =>
    rw [Node.render, Node.walk]
    exact follows_takeBuffer path
  | loop header children =>
    rw [Node.render, Node.walk]
    refine (follows_inContext host fun ctx => header.collection.resolve ctx).bind
      fun collection => ?_
    rw [id_eq]
    refine FollowsText.unless fun _ => ?_
    cases collection.loopEntries? with
    | none => exact .nothing
    | some entries =>
      by_cases hempty : children.isEmpty = true
      · simp only [if_pos hempty]
        exact .nothing
      · simp only [if_neg hempty]
        exact follows_renderEntries header (renderChildren_follows host path children) entries
  | conditional condition ifChildren elseChildren =>
    rw [Node.render, Node.walk]
    refine (follows_inContext host fun ctx => condition.holds ctx).bind fun holds => ?_
    cases holds with
    | true => exact renderChildren_follows host (path ++ [.int 0]) ifChildren
    | false => exact renderChildren_follows host (path ++ [.int 1]) elseChildren

/-- Rendering children fails where the walk does, and empties what that reaches. -/
theorem renderChildren_follows (host : Host) (path : BlockPath) (children : List (Key × Node)) :
    FollowsText (renderChildren host path children) (walkChildren host path children) := by
  cases children with
  | nil =>
    rw [renderChildren, walkChildren]
    exact .nothing
  | cons child rest =>
    rw [renderChildren, walkChildren]
    -- what the first child reaches is recorded even if the rest fails
    exact (Node.render_follows host (path ++ [child.1]) child.2).append
      (renderChildren_follows host path rest)

end

/-- What a walk reaches are blocks among the children. -/
theorem exists_innerBlock_of_reached {host : Host} {path : BlockPath} {children : List (Key × Node)}
    {vars : List (Key × Value)} {place : BlockPath}
    (h : place ∈ ((walkChildren host path children).run.run ⟨vars, []⟩).2.reached) :
    ∃ inner ∈ childrenInnerBlocks path children, inner == place := by
  -- a text that waits at the place would be gone after rendering
  have htouches := (renderChildren_touches host path children ⟨vars, [(place, [""])]⟩ _ (.refl _)).1
  obtain ⟨more, hwalk, hbuffers⟩ :=
    renderChildren_follows host path children ⟨vars, [(place, [""])]⟩ []
  rw [hwalk, List.nil_append] at h
  have hany : more.any (· == place) = true := List.any_eq_true.2 ⟨place, h, BEq.rfl⟩
  have hgone := hbuffers place
  rw [RenderState.bufferBeside, if_pos hany] at hgone
  obtain heq | ⟨-, inner⟩ := htouches.buffers place
  · rw [hgone, RenderState.buffer, valueOf?, if_pos BEq.rfl] at heq
    cases heq
  · exact inner

/-! ## What is left outstanding -/

namespace RenderState

/-- When the blocks at some places have been emptied, the buffers hold what is outstanding after
    these blocks have been drained. -/
theorem Holds.of_bufferBeside {s s' : RenderState} {history : List Event} (h : s.Holds history)
    {places : List BlockPath} (hbuffers : ∀ path, s'.buffer path = s.bufferBeside places path) :
    s'.Holds (history ++ places.map .drained) := by
  intro path
  rw [hbuffers path, outstanding_append_drained, bufferBeside, ← h path]
  split
  · rfl
  · rfl

/-- Whatever the buffers hold is outstanding by some history. -/
theorem exists_holds (s : RenderState) : ∃ history, s.Holds history := by
  obtain ⟨vars, buffers⟩ := s
  induction buffers with
  | nil => exact ⟨[], fun path => rfl⟩
  | cons entry rest ih =>
    obtain ⟨place, texts⟩ := entry
    obtain ⟨history, hrest⟩ := ih
    -- the first entry of a block hides what the rest has for it
    have hcleared : Holds ⟨vars, (place, []) :: rest⟩ (history ++ [.drained place]) := by
      intro path
      rw [outstanding_drained, ← hrest path, buffer, valueOf?]
      by_cases hpath : (place == path) = true
      · rw [if_pos hpath, if_pos hpath]
        rfl
      · rw [if_neg hpath, if_neg hpath]
        rfl
    induction texts using List.reverseRecOn with
    | nil => exact ⟨_, hcleared⟩
    | append_singleton first text ih =>
      obtain ⟨history', hfirst⟩ := ih
      refine ⟨history' ++ [.rendered place text], fun path => ?_⟩
      rw [outstanding_rendered, ← hfirst path, buffer, buffer, valueOf?, valueOf?]
      by_cases hpath : (place == path) = true
      · simp [hpath, String.join_append]
      · simp [hpath]

end RenderState

end BlockTemplate
