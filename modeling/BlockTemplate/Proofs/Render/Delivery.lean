import BlockTemplate.Proofs.Outcome
import BlockTemplate.Proofs.Render.Outline
import Mathlib.Data.List.DropRight

/-!
# Delivery of blocks

The texts of a block wait until the block is drained: by handing them out, by forgetting them, or by
reaching the block while something around it is rendered. A history of what has been rendered and
drained says what is outstanding for each block, and rendering delivers exactly that at the first
place of a block, and nothing at its other places.

## Key results

- `outstanding_deliver`: whatever is reached is drained, and all else stays outstanding
- `deliver_concat_place`: a block that is reached again delivers nothing
- `renderChildren_delivers`: rendering is delivering the parts of the outline, so that the buffers
  hold what is outstanding
-/

namespace BlockTemplate

/-- What happens to a block: it has rendered a text, or it is drained. -/
inductive Event where
  | rendered (path : BlockPath) (text : String)
  | drained (path : BlockPath)
deriving DecidableEq, Repr

namespace Event

/-- Whether the block at a path is drained. -/
def drains (path : BlockPath) : Event → Bool
  | .rendered _ _ => false
  | .drained other => other == path

/-- The text that the block at a path has rendered. -/
def text? (path : BlockPath) : Event → Option String
  | .rendered other text => if other == path then some text else none
  | .drained _ => none

end Event

/-- What the block at a path has rendered since it was last drained. -/
def outstanding (path : BlockPath) (history : List Event) : String :=
  String.join ((history.rtakeWhile fun e => !e.drains path).filterMap (Event.text? path))

/-- Render parts, so that each place delivers what is outstanding there and drains the block. -/
def deliver (history : List Event) : List Part → String × List Event
  | [] => ("", history)
  | .own text :: rest =>
    let (others, after) := deliver history rest
    (text ++ others, after)
  | .place path :: rest =>
    let (others, after) := deliver (history ++ [.drained path]) rest
    (outstanding path history ++ others, after)

/-! ## What is outstanding -/

@[simp] theorem outstanding_nil (path : BlockPath) : outstanding path [] = "" := rfl

/-- A text goes behind those that are outstanding already. -/
theorem outstanding_rendered (path other : BlockPath) (text : String) (history : List Event) :
    outstanding path (history ++ [.rendered other text])
      = outstanding path history ++ if other == path then text else "" := by
  -- the run of events that drain nothing is one longer
  have hkept : (!(Event.rendered other text).drains path) = true := rfl
  rw [outstanding, List.rtakeWhile_concat, if_pos hkept, List.filterMap_append, String.join_append,
    outstanding]
  by_cases h : (other == path) = true
  · simp [Event.text?, h]
  · simp [Event.text?, h]

/-- A block that is drained has nothing outstanding, and the other ones keep what they have. -/
theorem outstanding_drained (path other : BlockPath) (history : List Event) :
    outstanding path (history ++ [.drained other])
      = if other == path then "" else outstanding path history := by
  rw [outstanding, List.rtakeWhile_concat, outstanding]
  by_cases h : (other == path) = true
  · simp [Event.drains, h]
  · simp [Event.drains, List.filterMap_cons, Event.text?, h]

/-- Several blocks are drained one after the other. -/
theorem outstanding_append_drained (path : BlockPath) (history : List Event)
    (drained : List BlockPath) :
    outstanding path (history ++ drained.map .drained)
      = if drained.any (· == path) then "" else outstanding path history := by
  induction drained generalizing history with
  | nil => simp
  | cons first rest ih =>
    rw [List.map_cons, List.append_cons, ih, outstanding_drained, List.any_cons]
    by_cases h : (first == path) = true
    · simp [h]
    · simp [h]

/-! ## Delivering parts -/

@[simp] theorem deliver_nil (history : List Event) : deliver history [] = ("", history) := rfl

@[simp] theorem deliver_own (history : List Event) (text : String) (rest : List Part) :
    deliver history (.own text :: rest)
      = (text ++ (deliver history rest).1, (deliver history rest).2) :=
  rfl

@[simp] theorem deliver_place (history : List Event) (path : BlockPath) (rest : List Part) :
    deliver history (.place path :: rest)
      = (outstanding path history ++ (deliver (history ++ [.drained path]) rest).1,
          (deliver (history ++ [.drained path]) rest).2) :=
  rfl

/-- What is delivered first is gone for what follows. -/
theorem deliver_append (history : List Event) (first second : List Part) :
    deliver history (first ++ second)
      = ((deliver history first).1 ++ (deliver (deliver history first).2 second).1,
          (deliver (deliver history first).2 second).2) := by
  induction first generalizing history with
  | nil => simp
  | cons part rest ih =>
    cases part with
    | own text => rw [List.cons_append, deliver_own, deliver_own, ih, String.append_assoc]
    | place path => rw [List.cons_append, deliver_place, deliver_place, ih, String.append_assoc]

/-- The paths of the blocks that are reached among parts. -/
def places (parts : List Part) : List BlockPath :=
  parts.filterMap fun
    | .own _ => none
    | .place path => some path

theorem mem_places {path : BlockPath} {parts : List Part} :
    path ∈ places parts ↔ .place path ∈ parts := by
  rw [places, List.mem_filterMap]
  constructor
  · rintro ⟨part, hpart, hplace⟩
    cases part with
    | own text => exact nomatch hplace
    | place other =>
      cases hplace
      exact hpart
  · intro hpart
    exact ⟨_, hpart, rfl⟩

/-- What is delivered is drained, and nothing else happens. -/
theorem deliver_snd (history : List Event) (parts : List Part) :
    (deliver history parts).2 = history ++ (places parts).map .drained := by
  induction parts generalizing history with
  | nil => exact (List.append_nil history).symm
  | cons part rest ih =>
    cases part with
    | own text => exact ih history
    | place path =>
      rw [deliver_place, ih, List.append_assoc]
      rfl

/-- A block that is reached has nothing outstanding afterwards, and the other ones keep what they
    have. -/
theorem outstanding_deliver (path : BlockPath) (history : List Event) (parts : List Part) :
    outstanding path (deliver history parts).2
      = if (places parts).any (· == path) then "" else outstanding path history := by
  rw [deliver_snd, outstanding_append_drained]

/-- The first place of a block gets what is outstanding for it, and every other place nothing. -/
theorem deliver_concat_place (path : BlockPath) (history : List Event) (parts : List Part) :
    (deliver history (parts ++ [.place path])).1
      = (deliver history parts).1
        ++ if (places parts).any (· == path) then "" else outstanding path history := by
  rw [deliver_append, deliver_place, deliver_nil, String.append_empty, outstanding_deliver]

/-! ## Buffers -/

namespace RenderState

/-- The buffers hold what is outstanding. -/
def Holds (s : RenderState) (history : List Event) : Prop :=
  ∀ path, String.join (s.buffer path) = outstanding path history

/-- What is held depends on the buffers only. -/
theorem Holds.of_buffers_eq {s s' : RenderState} {history : List Event} (h : s.Holds history)
    (heq : s'.buffers = s.buffers) : s'.Holds history := by
  intro path
  rw [buffer, heq]
  exact h path

theorem buffer_clear (s : RenderState) (path other : BlockPath) :
    (s.clear path).buffer other = if path == other then [] else s.buffer other := by
  by_cases h : (path == other) = true
  · rw [if_pos h, buffer, clear, ← valueOf?_congr h, valueOf?_removeKey_self]
    rfl
  · rw [if_neg h, buffer, clear, valueOf?_removeKey_of_ne (Bool.eq_false_iff.2 h)]
    rfl

theorem buffer_accumulate (s : RenderState) (path other : BlockPath) (text : String) :
    (s.accumulate path text).buffer other
      = s.buffer other ++ if path == other then [text] else [] := by
  by_cases h : (path == other) = true
  · rw [if_pos h, buffer, accumulate, ← valueOf?_congr h, valueOf?_upsert_self, buffer, buffer,
      valueOf?_congr h]
    rfl
  · rw [if_neg h, List.append_nil, buffer, accumulate,
      valueOf?_upsert_of_ne (Bool.eq_false_iff.2 h)]
    rfl

theorem Holds.clear {s : RenderState} {history : List Event} (h : s.Holds history)
    (path : BlockPath) : (s.clear path).Holds (history ++ [.drained path]) := by
  intro other
  rw [buffer_clear, outstanding_drained]
  by_cases heq : (path == other) = true
  · rw [if_pos heq, if_pos heq]
    rfl
  · rw [if_neg heq, if_neg heq]
    exact h other

theorem Holds.accumulate {s : RenderState} {history : List Event} (h : s.Holds history)
    (path : BlockPath) (text : String) :
    (s.accumulate path text).Holds (history ++ [.rendered path text]) := by
  intro other
  rw [buffer_accumulate, outstanding_rendered, String.join_append, h other]
  by_cases heq : (path == other) = true
  · rw [if_pos heq, if_pos heq]
    simp
  · rw [if_neg heq, if_neg heq]
    rfl

end RenderState

/-! ## Rendering and outlining -/

variable {α β : Type}

/-- A rendering that succeeds binds what is outlined, and leaves the buffers alone. -/
def Rendering.Keeps (r : Rendering α) (o : Outlining α) : Prop :=
  ∀ s a s', r.run.run s = (.ok a, s') →
    o.run s.vars = .ok (a, s'.vars) ∧ s'.buffers = s.buffers

/-- A rendering that succeeds delivers the parts that are outlined, so that the buffers hold what is
    outstanding afterwards if they held it before. -/
def Rendering.Delivers (r : Rendering String) (o : Outlining (List Part)) : Prop :=
  ∀ s text s', r.run.run s = (.ok text, s') →
    ∃ parts, o.run s.vars = .ok (parts, s'.vars) ∧
      ∀ history, s.Holds history →
        (deliver history parts).1 = text ∧ s'.Holds (deliver history parts).2

theorem Rendering.exists_of_bind_eq_ok {r : Rendering α} {f : α → Rendering β}
    {s s' : RenderState} {b : β} (h : (r >>= f).run.run s = (.ok b, s')) :
    ∃ a between, r.run.run s = (.ok a, between) ∧ (f a).run.run between = (.ok b, s') := by
  -- the state that a failure leaves is dropped, as only success is at stake
  have hbind : (r >>= f).run.run s
      = (ExceptT.bindCont f (r.run.run s).1).run (r.run.run s).2 := rfl
  cases hr : r.run.run s with
  | mk outcome between =>
    rw [hbind, hr] at h
    cases outcome with
    | ok a => exact ⟨a, between, rfl, h⟩
    | error e => exact nomatch h

theorem Outlining.run_bind_of_ok {o : Outlining α} {f : α → Outlining β}
    {vars between : List (Key × Value)} {a : α} (h : o.run vars = .ok (a, between)) :
    (o >>= f).run vars = (f a).run between := by
  rw [StateT.run_bind, h, ok_bind]

namespace Rendering

theorem Keeps.pure (a : α) : Keeps (pure a) (pure a) := by
  intro s b s' h
  cases h
  exact ⟨rfl, rfl⟩

theorem Keeps.throw (e : RenderError) : Keeps (throw e : Rendering α) (throw e) := by
  intro s b s' h
  exact nomatch h

theorem Keeps.bind {r : Rendering α} {o : Outlining α} {f : α → Rendering β} {g : α → Outlining β}
    (hr : Keeps r o) (hf : ∀ a, Keeps (f a) (g a)) : Keeps (r >>= f) (o >>= g) := by
  intro s b s' h
  obtain ⟨a, between, ha, hb⟩ := exists_of_bind_eq_ok h
  obtain ⟨ho, hbuffers⟩ := hr s a between ha
  obtain ⟨hg, hbuffers'⟩ := hf a between b s' hb
  rw [Outlining.run_bind_of_ok ho]
  exact ⟨hg, hbuffers'.trans hbuffers⟩

theorem keeps_inContext (host : Host) (f : Context → Except RenderError α) :
    Keeps (inContext host f) (Outlining.inContext host f) := by
  intro s a s' h
  have hrun : (inContext host f).run.run s = (f (s.context host), s) := rfl
  rw [hrun] at h
  obtain ⟨hf, rfl⟩ := Prod.mk.inj h
  have hrun : (Outlining.inContext host f).run s.vars
      = (f (s.context host)).map fun a => (a, s.vars) := rfl
  rw [hrun, hf]
  exact ⟨rfl, rfl⟩

theorem keeps_bindLabel (label : Label) (v : Value) :
    Keeps (bindLabel label v) (Outlining.bindLabel label v) := by
  intro s a s' h
  rw [bindLabel] at h
  rw [Outlining.bindLabel]
  cases hkey : label.key? with
  | none =>
    rw [hkey] at h
    exact nomatch h
  | some name =>
    rw [hkey] at h
    cases h
    exact ⟨rfl, rfl⟩

theorem keeps_bindEntry (header : LoopHeader) (entry : Key × Value) :
    Keeps (header.bindEntry entry) (Outlining.bindEntry header entry) := by
  refine (keeps_bindLabel header.valueVar entry.2).bind fun _ => ?_
  cases header.boundKey? with
  | none => exact Keeps.pure ()
  | some label => exact keeps_bindLabel label entry.1.toValue

theorem Delivers.nothing : Delivers (pure "") (pure []) := by
  intro s text s' h
  cases h
  exact ⟨[], rfl, fun history hs => ⟨rfl, hs⟩⟩

theorem Keeps.bind_delivers {r : Rendering α} {o : Outlining α} {f : α → Rendering String}
    {g : α → Outlining (List Part)} (hr : Keeps r o) (hf : ∀ a, Delivers (f a) (g a)) :
    Delivers (r >>= f) (o >>= g) := by
  intro s text s' h
  obtain ⟨a, between, ha, hb⟩ := exists_of_bind_eq_ok h
  obtain ⟨ho, hbuffers⟩ := hr s a between ha
  obtain ⟨parts, hparts, hdelivers⟩ := hf a between text s' hb
  refine ⟨parts, (Outlining.run_bind_of_ok ho).trans hparts, fun history hs => ?_⟩
  exact hdelivers history (hs.of_buffers_eq hbuffers)

/-- A check that lets the rest go on only where it holds. -/
theorem Delivers.unless {c : Prop} [Decidable c] {e : RenderError} {f : PUnit → Rendering String}
    {g : PUnit → Outlining (List Part)} (h : ∀ u, Delivers (f u) (g u)) :
    Delivers (if c then throw e >>= f else f ⟨⟩) (if c then throw e >>= g else g ⟨⟩) := by
  by_cases hc : c
  · rw [if_pos hc, if_pos hc]
    exact (Keeps.throw e).bind_delivers h
  · rw [if_neg hc, if_neg hc]
    exact h ⟨⟩

/-- What a node renders itself is delivered as it is. -/
theorem Keeps.delivers {r : Rendering String} {o : Outlining String} (h : Keeps r o) :
    Delivers r (do return [.own (← o)]) := by
  intro s text s' hr
  obtain ⟨ho, hbuffers⟩ := h s text s' hr
  refine ⟨[.own text], Outlining.run_bind_of_ok ho, fun history hs => ?_⟩
  rw [deliver_own, deliver_nil, String.append_empty]
  exact ⟨rfl, hs.of_buffers_eq hbuffers⟩

/-- Reaching a block delivers what is outstanding for it. -/
theorem delivers_takeBuffer (path : BlockPath) :
    Delivers (takeBuffer path) (pure [.place path]) := by
  intro s text s' h
  have hrun : (takeBuffer path).run.run s = (.ok (String.join (s.buffer path)), s.clear path) := rfl
  rw [hrun] at h
  obtain ⟨htext, hs'⟩ := Prod.mk.inj h
  cases htext
  subst hs'
  refine ⟨[.place path], rfl, fun history hs => ?_⟩
  rw [deliver_place, deliver_nil, String.append_empty]
  exact ⟨(hs path).symm, hs.clear path⟩

theorem Delivers.append {r₁ r₂ : Rendering String} {o₁ o₂ : Outlining (List Part)}
    (h₁ : Delivers r₁ o₁) (h₂ : Delivers r₂ o₂) :
    Delivers (do return (← r₁) ++ (← r₂)) (do return (← o₁) ++ (← o₂)) := by
  intro s text s' h
  obtain ⟨first, between, hfirst, h⟩ := exists_of_bind_eq_ok h
  obtain ⟨second, last, hsecond, h⟩ := exists_of_bind_eq_ok h
  cases h
  obtain ⟨parts, hparts, hdelivers⟩ := h₁ s first between hfirst
  obtain ⟨parts', hparts', hdelivers'⟩ := h₂ between second s' hsecond
  refine ⟨parts ++ parts', ?_, fun history hs => ?_⟩
  · rw [Outlining.run_bind_of_ok hparts, Outlining.run_bind_of_ok hparts']
    rfl
  · obtain ⟨hfirst, hbetween⟩ := hdelivers history hs
    obtain ⟨hsecond, hlast⟩ := hdelivers' _ hbetween
    rw [deliver_append, hfirst, hsecond]
    exact ⟨rfl, hlast⟩

end Rendering

open Rendering

theorem renderEntries_delivers (header : LoopHeader) {body : Rendering String}
    {outlined : Outlining (List Part)} (h : Delivers body outlined)
    (entries : List (Key × Value)) :
    Delivers (renderEntries header body entries) (Outlining.entries header outlined entries) := by
  induction entries with
  | nil => exact Delivers.nothing
  | cons entry rest ih => exact (keeps_bindEntry header entry).bind_delivers fun _ => h.append ih

mutual

/-- Rendering a node is delivering the parts of its outline. -/
theorem Node.render_delivers (host : Host) (path : BlockPath) (node : Node) :
    Delivers (node.render host path) (node.outline host path) := by
  cases node with
  | data chunks =>
    rw [Node.render, Node.outline]
    exact (keeps_inContext host fun ctx => chunksText ctx chunks).delivers
  | block name children =>
    rw [Node.render, Node.outline]
    exact delivers_takeBuffer path
  | loop header children =>
    rw [Node.render, Node.outline]
    refine (keeps_inContext host fun ctx => header.collection.resolve ctx).bind_delivers
      fun collection => ?_
    refine Delivers.unless fun _ => ?_
    cases collection.loopEntries? with
    | none => exact Delivers.nothing
    | some entries =>
      by_cases hempty : children.isEmpty = true
      · simp only [if_pos hempty]
        exact Delivers.nothing
      -- the body is the same rendering for every entry; only the variables and what is
      -- outstanding change from one to the next
      · simp only [if_neg hempty]
        exact renderEntries_delivers header (renderChildren_delivers host path children) entries
  | conditional condition ifChildren elseChildren =>
    rw [Node.render, Node.outline]
    refine (keeps_inContext host fun ctx => condition.holds ctx).bind_delivers fun holds => ?_
    cases holds with
    | true => exact renderChildren_delivers host (path ++ [.int 0]) ifChildren
    | false => exact renderChildren_delivers host (path ++ [.int 1]) elseChildren

/-- Rendering children is delivering the parts of their outline. -/
theorem renderChildren_delivers (host : Host) (path : BlockPath) (children : List (Key × Node)) :
    Delivers (renderChildren host path children) (outlineChildren host path children) := by
  cases children with
  | nil =>
    rw [renderChildren, outlineChildren]
    exact Delivers.nothing
  | cons child rest =>
    rw [renderChildren, outlineChildren]
    -- what the first child drains is gone for the rest
    exact (Node.render_delivers host (path ++ [child.1]) child.2).append
      (renderChildren_delivers host path rest)

end

/-- Parsing a block that succeeds delivers the parts within it, and makes the text outstanding for
    the block. -/
theorem holds_of_parseBlock {host : Host} {path : BlockPath} {children : Children}
    {s s' : RenderState} (h : (parseBlock host path children).run.run s = (.ok (), s')) :
    ∃ parts, (outlineChildren host path children).run s.vars = .ok (parts, s'.vars) ∧
      ∀ history, s.Holds history →
        s'.Holds ((deliver history parts).2 ++ [.rendered path (deliver history parts).1]) := by
  obtain ⟨text, between, htext, h⟩ := Rendering.exists_of_bind_eq_ok h
  obtain ⟨parts, hparts, hdelivers⟩ :=
    renderChildren_delivers host path children s text between htext
  -- the text goes to the block itself, behind what its children have drained
  have hs' : s' = between.accumulate path text := (Prod.mk.inj h).2.symm
  subst hs'
  refine ⟨parts, hparts, fun history hs => ?_⟩
  obtain ⟨rfl, hbetween⟩ := hdelivers history hs
  exact hbetween.accumulate path _

end BlockTemplate
