import BlockTemplate.Proofs.Render.Reaching
import BlockTemplate.Proofs.Session.Delivery
import BlockTemplate.Proofs.Session.Footprint
import Mathlib

/-!
# Parses that fail

A parse hands out the texts of the blocks within its block as it reaches them, and a parse that
fails takes back nothing. So the blocks that it has reached have lost their texts, all other blocks
have theirs, and the next parse of the block delivers what those others have.

## Key results

- `Session.failure_of_parse`: what a failed parse leaves
- `parse_failure`: all blocks of a compiled template
- `buffers_parse_ne_of_reached`: a failed parse loses the text of a block that it has reached
-/

namespace BlockTemplate

open RenderState

namespace Session

/-- What a parse of the block at a path leaves that has failed, and what it has reached before:
    the buffers of the blocks that were reached are empty, all other ones are as they were, and a
    later parse of the block that succeeds delivers what these hold. -/
structure ParseFailure (s : Session) (block : String) (path : BlockPath) (children : Children)
    (cause : RenderError) (reached : List BlockPath) (left : Session) : Prop where
  state_only : left = { s with state := left.state }
  walk : (walkChildren s.host path children).run.run ⟨s.state.vars, []⟩
    = (.error cause, ⟨left.state.vars, reached⟩)
  inner : ∀ place ∈ reached, ∃ inner ∈ childrenInnerBlocks path children, inner == place
  own : left.state.buffer path = s.state.buffer path
  lost : ∀ other, reached.any (· == other) = true → left.state.buffer other = []
  kept : ∀ other, reached.any (· == other) = false →
    left.state.buffer other = s.state.buffer other
  again : ∀ history, s.state.Holds history →
    ∀ corrected parsed : Session, corrected.compiled = s.compiled →
      corrected.state.buffers = left.state.buffers → corrected.parse block = (.ok (), parsed) →
        ∃ parts, (outlineChildren corrected.host path children).run corrected.state.vars
            = .ok (parts, parsed.state.vars)
          ∧ parsed.state.buffer path
            = s.state.buffer path ++ [(deliver (history ++ reached.map .drained) parts).1]

section
variable {s : Session} {block : String} {path : BlockPath} {name : Label} {children : Children}

/-- A parse that succeeds adds to the buffer of the block what its parts deliver. -/
theorem buffer_of_parse_eq_ok {s' : Session} {history : List Event}
    (hlocate : s.locate block = .ok (some (path, .node (.block name children))))
    (h : s.parse block = (.ok (), s')) (hs : s.state.Holds history) :
    ∃ parts, (outlineChildren s.host path children).run s.state.vars = .ok (parts, s'.state.vars)
      ∧ s'.state.buffer path = s.state.buffer path ++ [(deliver history parts).1] := by
  have htouches := (renderChildren_touches s.host path children s.state s.state (.refl _)).1
  have hrun := s.run_parseBlock path children
  rw [parse, hlocate] at h
  rcases hrender : (renderChildren s.host path children).run.run s.state with ⟨outcome, rendered⟩
  rw [hrender] at htouches hrun
  simp only [hrun] at h
  cases outcome with
  | error e => cases h
  | ok text =>
    obtain ⟨parts, hparts, hdelivers⟩ :=
      renderChildren_delivers s.host path children s.state text rendered hrender
    have hs' : s'.state = rendered.accumulate path text := by
      rw [← (Prod.mk.inj h).2, state_recorded]
    have hown : rendered.buffer path = s.state.buffer path := htouches.buffer_own
    rw [hs', buffer_accumulate, if_pos BEq.rfl, hown, ← (hdelivers history hs).1]
    exact ⟨parts, hparts, rfl⟩

/-- A parse that fails and has found its block leaves what it has not reached. -/
theorem failure_of_parse {e : SessionError}
    (hlocate : s.locate block = .ok (some (path, .node (.block name children))))
    (h : (s.parse block).1 = .error e) :
    ∃ cause reached, e = .render cause
      ∧ s.ParseFailure block path children cause reached (s.parse block).2 := by
  have htouches := (renderChildren_touches s.host path children s.state s.state (.refl _)).1
  obtain ⟨reached, hwalk, hbuffers⟩ := renderChildren_follows s.host path children s.state []
  have hinner (place : BlockPath) (hplace : place ∈ reached) :
      ∃ inner ∈ childrenInnerBlocks path children, inner == place := by
    have hmem :
        place ∈ ((walkChildren s.host path children).run.run ⟨s.state.vars, []⟩).2.reached := by
      rw [hwalk]
      exact hplace
    exact exists_innerBlock_of_reached hmem
  have hrun := s.run_parseBlock path children
  rcases hrender : (renderChildren s.host path children).run.run s.state with ⟨outcome, rendered⟩
  rw [hrender] at htouches hwalk hbuffers hrun
  cases outcome with
  | ok text =>
    rw [parse, hlocate] at h
    simp only [hrun] at h
    cases h
  | error cause =>
    have hparse : s.parse block = (.error (.render cause), { s with state := rendered }) := by
      rw [parse, hlocate]
      simp only [hrun]
    rw [hparse] at h ⊢
    refine ⟨cause, reached, (Except.error.inj h).symm, ?_⟩
    have hown : rendered.buffer path = s.state.buffer path := htouches.buffer_own
    exact {
      state_only := rfl
      walk := hwalk
      inner := hinner
      own := hown
      lost := fun other hother => by rw [hbuffers other, bufferBeside, if_pos hother]
      kept := fun other hother => by
        rw [hbuffers other, bufferBeside, hother, if_neg Bool.false_ne_true]
      again := by
        intro history hs corrected parsed hcompiled hcorrected hagain
        -- the bag does not matter for what is outstanding
        have hheld : corrected.state.Holds (history ++ reached.map .drained) :=
          (hs.of_bufferBeside hbuffers).of_buffers_eq hcorrected
        have hfound : corrected.locate block
            = .ok (some (path, .node (.block name children))) := by
          rw [locate, hcompiled]
          exact hlocate
        obtain ⟨parts, hparts, hbuffer⟩ := buffer_of_parse_eq_ok hfound hagain hheld
        have hbefore : corrected.state.buffer path = s.state.buffer path := by
          rw [buffer, hcorrected]
          exact hown
        exact ⟨parts, hparts, by rw [hbuffer, hbefore]⟩ }

end

end Session

/-- A failed parse loses what has waited in the blocks that it has reached, and nothing else. In the
    session of a compiled template, a parse that fails has gone through the children of its block up
    to a failing node. The blocks that it has reached on the way, all of them within the block, have
    handed out their texts into the lost text and are empty; all other buffers are as they were, the
    one of the block among them. Once the variables are corrected, parsing the block again delivers
    all that was outstanding but what the failed parse has reached. -/
theorem parse_failure {code : List Char} {s : Session}
    (ht : compileTemplate code = .ok s.compiled) {block : String} {e : SessionError}
    (h : (s.parse block).1 = .error e) :
    ∃ path name children cause reached,
      s.locate block = .ok (some (path, .node (.block (.text name) children)))
        ∧ e = .render cause
        ∧ s.ParseFailure block path children cause reached (s.parse block).2 := by
  obtain hnone | ⟨path, name, children, hlocate⟩ := Session.findsBlock_of_compileTemplate ht block
  · rw [Session.parse, hnone] at h
    cases h
  · obtain ⟨cause, reached, hcause, hfailure⟩ := Session.failure_of_parse hlocate h
    exact ⟨path, name, children, cause, reached, hlocate, hcause, hfailure⟩

/-! ## A block in front of a callback -/

/-- A template with a block on either side of a loop that calls a callback without its argument. -/
def failingSource : List Char :=
  "<!-- BEGIN: A --><!-- BEGIN: B --><!-- END: B --><!-- FOR {V} IN {D} -->{V|count()}".toList
    ++ "<!-- ENDFOR --><!-- BEGIN: C --><!-- END: C --><!-- END: A -->".toList

/-- A session of a template with texts that wait in the blocks, and with an entry for the loop. -/
def failingSession (t : CompiledTemplate) : Session :=
  { Session.start "page" {} .default "0" t with
    state :=
      { vars := [(.text "D", .sequence (.host 0) [.int 1])]
        buffers := [([.text "A", .text "B"], ["x"]), ([.text "A", .text "C"], ["z"])] } }

/-- The blocks that a walk through the block at a place reaches. -/
def Place.reached (host : Host) (vars : List (Key × Value)) (path : BlockPath) :
    Place → List BlockPath
  | .node (.block _ children) => ((walkChildren host path children).run.run ⟨vars, []⟩).2.reached
  | _ => []

set_option maxRecDepth 4000 in
/-- The first block has been reached when the callback fails, and the other has not. -/
theorem parse_failure_of_call :
    ∃ t name children cause, compileTemplate failingSource = .ok t
      ∧ ((failingSession t).parse "A").1 = .error (.render cause)
      ∧ (failingSession t).locate "A"
        = .ok (some ([.text "A"], .node (.block (.text name) children)))
      ∧ (failingSession t).ParseFailure "A" [.text "A"] children cause
        [[.text "A", .text "B"]] ((failingSession t).parse "A").2 := by
  have hcompiled : (compileTemplate failingSource).map (fun t =>
      (((failingSession t).parse "A").1,
        ((failingSession t).locate "A").map (Option.map fun found => (found.1,
          found.2.reached (failingSession t).host (failingSession t).state.vars found.1))))
      = .ok (.error (.render (.callback .wrongArguments)),
        .ok (some ([.text "A"], [[.text "A", .text "B"]]))) := by cbv
  obtain ⟨t, ht, hrun⟩ := exists_of_map_eq_ok hcompiled
  obtain ⟨hparse, hreached⟩ := Prod.mk.inj hrun
  obtain ⟨path, name, children, cause, reached, hlocate, hcause, hfailure⟩ :=
    parse_failure (s := failingSession t) ht hparse
  rw [hlocate] at hreached
  obtain ⟨rfl, hwalked⟩ : path = [.text "A"] ∧ _ := by
    simpa [Except.map, Place.reached] using hreached
  rw [hfailure.walk] at hwalked
  subst hwalked
  exact ⟨t, name, children, cause, ht, by rw [hparse, hcause], hlocate, hfailure⟩

set_option maxRecDepth 4000 in
/-- A parse that fails behind a block has emptied it, and the next parse misses its text. -/
theorem buffers_parse_ne_of_reached :
    ∃ t, compileTemplate failingSource = .ok t
      ∧ ((failingSession t).performAll
          [.parse "A", .assign "D" .null, .parse "A", .text "A"]).1
        = [.error (.render (.callback .wrongArguments)), .ok none, .ok none, .ok (some "z")]
      ∧ ((failingSession t).performAll [.assign "D" .null, .parse "A", .text "A"]).1
        = [.ok none, .ok none, .ok (some "xz")]
      ∧ ((failingSession t).parse "A").2.state.buffers ≠ (failingSession t).state.buffers := by
  have hcompiled : (compileTemplate failingSource).map (fun t =>
      (((failingSession t).performAll
          [.parse "A", .assign "D" .null, .parse "A", .text "A"]).1,
        ((failingSession t).performAll [.assign "D" .null, .parse "A", .text "A"]).1,
        ((failingSession t).parse "A").2.state.buffers))
      = .ok ([.error (.render (.callback .wrongArguments)), .ok none, .ok none,
          .ok (some "z")],
        [.ok none, .ok none, .ok (some "xz")], [([.text "A", .text "C"], ["z"])]) := by cbv
  obtain ⟨t, ht, hrun⟩ := exists_of_map_eq_ok hcompiled
  obtain ⟨hfailed, hrun⟩ := Prod.mk.inj hrun
  obtain ⟨hfine, hleft⟩ := Prod.mk.inj hrun
  refine ⟨t, ht, hfailed, hfine, ?_⟩
  rw [hleft]
  simp [failingSession]

end BlockTemplate
