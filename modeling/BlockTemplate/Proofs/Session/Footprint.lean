import BlockTemplate.Proofs.Render.Footprint
import BlockTemplate.Proofs.Session.Navigation
import BlockTemplate.Proofs.Stored.Template
import BlockTemplate.Proofs.Template.Loops

/-!
# The footprint of a parse

Parsing a block changes the variables of the loops in its body, its own buffer, and the buffers of
the blocks in its body. Handing out its text changes its own buffer only. All else in a session
stays as it was, and so do the contents of all arrays and objects in reach.

## Key results

- `Session.footprint_parse`, `Session.footprint_text`: what the operations of a block change
- `parse_text_footprint`: all blocks of a compiled template
-/

namespace BlockTemplate

open RenderState

namespace Session

/-- The containers in reach of a session: those in the variables and in the host globals. -/
def containers (s : Session) : List Value :=
  entriesContainers s.state.vars ++ s.host.globals.containers

/-- What a parse of the block at a path changes, whether it succeeds or not. -/
structure ParseFootprint (s : Session) (path : BlockPath) (children : Children)
    (result : Except SessionError Unit × Session) : Prop where
  state_only : result.2 = { s with state := result.2.state }
  vars : varsBeside (childrenLoopVars children) result.2.state.vars
    = varsBeside (childrenLoopVars children) s.state.vars
  own : match result.1 with
    | .ok () => ∃ text, result.2.state.buffer path = s.state.buffer path ++ [text]
    | .error _ => result.2.state.buffer path = s.state.buffer path
  inner : ∀ place ∈ childrenInnerBlocks path children,
    result.2.state.buffer place = s.state.buffer place ∨ result.2.state.buffer place = []
  others : ∀ other, (path == other) = false →
    (∀ place ∈ childrenInnerBlocks path children, (place == other) = false) →
      result.2.state.buffer other = s.state.buffer other
  contents : ∀ c ∈ result.2.containers, c.IsUnchanged s.containers

/-- What handing out the text of the block at a path changes. -/
structure TextFootprint (s : Session) (path : BlockPath) (s' : Session) : Prop where
  state_only : s' = { s with state := s'.state }
  vars : s'.state.vars = s.state.vars
  others : ∀ other, (path == other) = false → s'.state.buffer other = s.state.buffer other

section
variable {s : Session} {block : String} {path : BlockPath} {name : Label} {children : Children}

theorem holdsWithin_isUnchanged (s : Session) :
    s.state.HoldsWithin (Value.IsUnchanged s.containers) := by
  intro entry hentry c hc _ _ _
  exact List.mem_append_left _ (mem_entriesContainers.2 ⟨entry, hentry, hc⟩)

theorem globals_isUnchanged (s : Session) :
    s.host.globals.Within (Value.IsUnchanged s.containers) :=
  fun _ hc _ _ _ => List.mem_append_right _ hc

/-- What holds of all containers in the variables and in the globals holds of those in reach. -/
theorem forall_mem_containers {P : Value → Prop} (hvars : s.state.HoldsWithin P)
    (hglobals : s.host.globals.Within P) : ∀ c ∈ s.containers, P c := by
  intro c hc
  obtain hc | hc := List.mem_append.1 hc
  · obtain ⟨entry, hentry, hc⟩ := mem_entriesContainers.1 hc
    exact hvars entry hentry c hc
  · exact hglobals c hc

/-- A state that differs from the one of rendering in the block's own buffer only. -/
theorem footprint_of_touches {rendered after : RenderState} {outcome : Except SessionError Unit}
    (htouches : Touches (childrenLoopVars children) (childrenInnerBlocks path children) s.state
      rendered)
    (hholds : rendered.HoldsWithin (Value.IsUnchanged s.containers))
    (hvars : after.vars = rendered.vars)
    (hbuffers : ∀ other, (path == other) = false → after.buffer other = rendered.buffer other)
    (hown : match outcome with
      | .ok () => ∃ text, after.buffer path = rendered.buffer path ++ [text]
      | .error _ => after.buffer path = rendered.buffer path) :
    s.ParseFootprint path children (outcome, { s with state := after }) where
  state_only := rfl
  vars := by
    dsimp only
    rw [hvars]
    exact htouches.vars
  own := by
    rw [← htouches.buffer_own]
    exact hown
  inner place hplace := by
    have hne := (below_of_mem_innerBlocks hplace).not_beq
    rw [hbuffers place (BEq.symm_false hne)]
    exact (htouches.buffers place).imp_right And.left
  -- a buffer that has changed is one of the inner blocks
  others other hother hinner := by
    rw [hbuffers other hother]
    obtain heq | ⟨-, place, hplace, hbeq⟩ := htouches.buffers other
    · exact heq
    · exact nomatch (hinner place hplace).symm.trans hbeq
  contents := by
    refine forall_mem_containers (fun entry hentry => ?_) s.globals_isUnchanged
    rw [hvars] at hentry
    exact hholds entry hentry

theorem run_parseBlock (s : Session) (path : BlockPath) (children : Children) :
    s.run (parseBlock s.host path children)
      = match (renderChildren s.host path children).run.run s.state with
        | (.ok text, rendered) => (.ok (), { s with state := rendered.accumulate path text })
        | (.error e, rendered) => (.error (.render e), { s with state := rendered }) := by
  have hparse : (parseBlock s.host path children).run.run s.state
      = (ExceptT.bindCont (fun text => (modify (·.accumulate path text) : Rendering Unit))
          ((renderChildren s.host path children).run.run s.state).1).run
          ((renderChildren s.host path children).run.run s.state).2 := rfl
  rw [run, hparse]
  rcases (renderChildren s.host path children).run.run s.state with ⟨outcome, rendered⟩
  cases outcome with
  | ok text => rfl
  | error e => rfl

theorem recorded_of_debug (hdebug : s.config.debug = false) (block : String) :
    s.recorded block = s := by
  rw [recorded, hdebug]
  rfl

/-- A parse that finds its block leaves its footprint. -/
theorem footprint_parse (hlocate : s.locate block = .ok (some (path, .node (.block name children))))
    (hdebug : s.config.debug = false)
    (hcalls : s.callbacks.StaysWithin (Value.IsUnchanged s.containers))
    (hconfined : ∀ header ∈ childrenLoops children, header.collection.isConfined fun _ => true) :
    s.ParseFootprint path children (s.parse block) := by
  have htouches := (renderChildren_touches s.host path children s.state s.state (.refl _)).1
  have hholds := (renderChildren_holdsWithin hcalls s.globals_isUnchanged path hconfined
    s.state s.holdsWithin_isUnchanged).1
  have hrun := s.run_parseBlock path children
  rcases hrender : (renderChildren s.host path children).run.run s.state with ⟨outcome, rendered⟩
  rw [hrender] at htouches hholds hrun
  rw [parse, hlocate]
  simp only [hrun]
  cases outcome with
  | ok text =>
    simp only [recorded_of_debug (s := { s with state := rendered.accumulate path text }) hdebug]
    refine footprint_of_touches htouches hholds rfl (fun other hother => ?_) ⟨text, ?_⟩
    · rw [buffer_accumulate, hother, if_neg Bool.false_ne_true, List.append_nil]
    · rw [buffer_accumulate, if_pos BEq.rfl]
  | error e => exact footprint_of_touches htouches hholds rfl (fun _ _ => rfl) rfl

/-- Handing out the text of a block that is found leaves its footprint. -/
theorem footprint_text
    (hlocate : s.locate block = .ok (some (path, .node (.block name children)))) :
    s.TextFootprint path (s.text block).2 := by
  have htext : s.text block
      = (.ok (String.join (s.state.buffer path)), { s with state := s.state.clear path }) := by
    rw [text, hlocate]
    rfl
  rw [htext]
  refine ⟨rfl, rfl, fun other hother => ?_⟩
  rw [buffer_clear, hother, if_neg Bool.false_ne_true]

end

end Session

/-- The collections of the loops of a compiled template are as a text was parsed. -/
theorem isConfined_of_mem_allLoops {code : List Char} {t : CompiledTemplate}
    (ht : compileTemplate code = .ok t) :
    ∀ header ∈ childrenAllLoops t.blocks, header.collection.isConfined fun _ => true := by
  refine forall_mem_allLoops (fun text header hparse => ?_) ht
  obtain ⟨⟨body, hbody⟩, -⟩ := LoopHeader.exists_of_parse? hparse
  rw [hbody]
  exact (Reference.isStorable_parse body).isConfined

/-- The operations of a block touch only what they must. In the session of a compiled template,
    parsing a block changes nothing but the variables of the loops in its body, its own buffer, to
    which a parse that succeeds adds one text, and the buffers of the blocks in its body, which may
    be emptied; and so it is when the parse fails on the way. What is in reach of the session
    afterwards, at any depth, is as it was, if the callbacks leave it so. Handing out the text of a
    block changes nothing but its buffer. -/
theorem parse_text_footprint {code : List Char} {s : Session}
    (ht : compileTemplate code = .ok s.compiled) (hdebug : s.config.debug = false)
    (hcalls : s.callbacks.StaysWithin (Value.IsUnchanged s.containers)) (block : String) :
    (s.locate block = .ok none ∧ s.parse block = (.ok (), s) ∧ s.text block = (.ok "", s))
      ∨ ∃ path name children,
        s.locate block = .ok (some (path, .node (.block (.text name) children)))
          ∧ s.ParseFootprint path children (s.parse block)
          ∧ s.TextFootprint path (s.text block).2 := by
  obtain hnone | ⟨path, name, children, hlocate⟩ := Session.findsBlock_of_compileTemplate ht block
  · refine .inl ⟨hnone, ?_, ?_⟩
    · rw [Session.parse, hnone]
      simp only [Session.recorded_of_debug hdebug]
    · rw [Session.text, hnone]
  · refine .inr ⟨path, name, children, hlocate, ?_, Session.footprint_text hlocate⟩
    have hloops : childrenLoops children ⊆ childrenAllLoops s.compiled.blocks :=
      List.Subset.trans (childrenLoops_subset_all children)
        (CompiledTemplate.allLoops_locate (eq_ok_of_mapError_eq_ok hlocate))
    exact Session.footprint_parse hlocate hdebug hcalls fun header hheader =>
      isConfined_of_mem_allLoops ht header (hloops hheader)

/-- A template with a loop that reaches a block. -/
def footprintSource : List Char :=
  "<!-- BEGIN: A --><!-- FOR {V} IN {ROWS} -->{V}<!-- BEGIN: B --><!-- END: B -->".toList
    ++ "<!-- ENDFOR --><!-- END: A -->".toList

/-- A session of a template with rows to go through, and with texts that wait in its blocks. -/
def footprintSession (t : CompiledTemplate) : Session :=
  { Session.start "page" {} .default "0" t with
    state :=
      { vars := [(.text "ROWS", .sequence (.host 0) [.int 1, .mapping (.host 1) []])]
        buffers := [([.text "A"], ["a"]), ([.text "A", .int 0, .text "B"], ["b"])] } }

/-- The variables of the loops in a place, and the blocks in it, with no block between. -/
def Place.reach (path : BlockPath) : Place → List Key × List BlockPath
  | .node (.block _ children) => (childrenLoopVars children, childrenInnerBlocks path children)
  | _ => ([], [])

set_option maxRecDepth 4000 in
/-- The loop binds its variable, and the block that it reaches is emptied. -/
theorem parse_text_footprint_of_loop :
    ∃ t name children, compileTemplate footprintSource = .ok t
      ∧ childrenLoopVars children = [.text "V"]
      ∧ childrenInnerBlocks [.text "A"] children = [[.text "A", .int 0, .text "B"]]
      ∧ (footprintSession t).locate "A"
        = .ok (some ([.text "A"], .node (.block (.text name) children)))
      ∧ (footprintSession t).ParseFootprint [.text "A"] children ((footprintSession t).parse "A")
      ∧ (footprintSession t).TextFootprint [.text "A"] ((footprintSession t).text "A").2 := by
  have hcompiled : (compileTemplate footprintSource).map (fun t =>
      ((footprintSession t).locate "A").map
        (Option.map fun found => (found.1, found.2.reach found.1)))
      = .ok (.ok (some ([.text "A"], [.text "V"], [[.text "A", .int 0, .text "B"]]))) := by cbv
  obtain ⟨t, ht, hreach⟩ := exists_of_map_eq_ok hcompiled
  have hcalls := staysWithin_default (Value.IsUnchanged (footprintSession t).containers)
  obtain ⟨hnone, -⟩ | ⟨path, name, children, hlocate, hparse, htext⟩ :=
    parse_text_footprint (s := footprintSession t) ht rfl hcalls "A"
  · rw [hnone] at hreach
    cases hreach
  · rw [hlocate] at hreach
    obtain ⟨rfl, hvars, hblocks⟩ : path = [.text "A"] ∧ _ ∧ _ := by
      simpa [Except.map, Place.reach] using hreach
    exact ⟨t, name, children, ht, hvars, hblocks, hlocate, hparse, htext⟩

end BlockTemplate
