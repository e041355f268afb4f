import BlockTemplate.Proofs.Render.Delivery
import BlockTemplate.Proofs.Session.Operation

/-!
# Delivery in a session

A chronicle is a session that has no buffers. It keeps the history of its blocks instead, and what a
block hands out is what the history says is outstanding. Sessions and chronicles cannot be told
apart by what their operations give, so a session loses no text of a block, delivers none twice and
keeps them in order.

## Key results

- `Chronicle.exists_drained_of_parse`: parsing a block drains blocks below it only
- `Chronicle.perform_of`: an operation of a session is the operation of the chronicle
- `text_of_performAll`: after any operations, a block hands out what is outstanding for it
-/

namespace BlockTemplate

/-- A session without buffers, and the history of its blocks. -/
structure Chronicle where
  session : Session
  history : List Event

namespace Chronicle

/-- Add what has happened to a block. -/
def note (c : Chronicle) (e : Event) : Chronicle := { c with history := c.history ++ [e] }

/-- Deliver the parts of an outline. -/
def deliver (c : Chronicle) (outlining : Outlining (List Part)) :
    Except SessionError (String × Chronicle) :=
  match outlining.run c.session.state.vars with
  | .error e => .error (.render e)
  | .ok (parts, vars) =>
    let (text, history) := BlockTemplate.deliver c.history parts
    .ok (text, ⟨{ c.session with state := ⟨vars, []⟩ }, history⟩)

/-- Record the variables for a block, if debugging is on. -/
def recorded (c : Chronicle) (block : String) : Chronicle :=
  { c with session := c.session.recorded block }

/-- Parse a block: deliver what is reached in it, and note the text that it has rendered. -/
def parse (c : Chronicle) (block : String) : Except SessionError Chronicle :=
  match c.session.locate block with
  | .error e => .error e
  | .ok none => .ok (c.recorded block)
  | .ok (some (path, .node (.block _ children))) => do
    let (text, c) ← c.deliver (outlineChildren c.session.host path children)
    return (c.note (.rendered path text)).recorded block
  | .ok (some (_, place)) => .error (.notABlock "parse" place.kindName block)

/-- Hand out what is outstanding for a block. What is no block is rendered. -/
def text (c : Chronicle) (block : String) : Except SessionError (String × Chronicle) :=
  match c.session.locate block with
  | .error e => .error e
  | .ok (some (path, .node (.block _ _))) =>
    .ok (outstanding path c.history, c.note (.drained path))
  | .ok (some (path, .node node)) => c.deliver (node.outline c.session.host path)
  | .ok _ => .ok ("", c)

/-- Let a block forget what is outstanding. -/
def reset (c : Chronicle) (block : String) : Except SessionError Chronicle :=
  match c.session.locate block with
  | .error e => .error e
  | .ok none => .ok c
  | .ok (some (path, .node (.block _ _))) => .ok (c.note (.drained path))
  | .ok (some (_, place)) => .error (.notABlock "reset" place.kindName block)

/-- Perform an operation. What is shown for a block is its text. -/
def perform (c : Chronicle) : Operation → Except SessionError (Option String × Chronicle)
  | .assign name v => .ok (none, { c with session := c.session.assign name v })
  | .assignAll front entries => .ok (none, { c with session := c.session.assignAll front entries })
  | .parse block => (c.parse block).map fun c => (none, c)
  | .text block | .out block => (c.text block).map fun (text, c) => (some text, c)
  | .reset block => (c.reset block).map fun c => (none, c)

/-- Perform operations one after the other. -/
def performAll (c : Chronicle) :
    List Operation → Except SessionError (List (Option String) × Chronicle)
  | [] => .ok ([], c)
  | operation :: rest => do
    let (output, c) ← c.perform operation
    let (outputs, c) ← c.performAll rest
    return (output :: outputs, c)

/-- Parsing a block drains blocks below it and no other ones, and then it has rendered a text. -/
theorem exists_drained_of_parse {c c' : Chronicle} {block : String} {path : BlockPath}
    {name : Label} {children : Children}
    (hlocate : c.session.locate block = .ok (some (path, .node (.block name children))))
    (h : c.parse block = .ok c') :
    ∃ (reached : List BlockPath) (text : String),
      c'.history = c.history ++ reached.map .drained ++ [.rendered path text] ∧
      ∀ place ∈ reached, Below path place := by
  rw [parse, hlocate] at h
  obtain ⟨⟨text, delivered⟩, hdeliver, h⟩ := exists_of_bind_eq_ok h
  cases h
  rw [deliver] at hdeliver
  cases hrun : (outlineChildren c.session.host path children).run c.session.state.vars with
  | error e =>
    rw [hrun] at hdeliver
    cases hdeliver
  | ok result =>
    rw [hrun] at hdeliver
    cases hdeliver
    refine ⟨places result.1, _, congrArg (· ++ _) (deliver_snd c.history result.1), ?_⟩
    intro place hplace
    exact allPlaces_outlineChildren c.session.host path children _ _ _ hrun place
      (mem_places.1 hplace)

end Chronicle

/-! ## Sessions without buffers -/

namespace Session

/-- The session without what its blocks have accumulated. -/
def withoutBuffers (s : Session) : Session := { s with state := ⟨s.state.vars, []⟩ }

theorem withoutBuffers_assignPath (s : Session) (name : String) (keys : List String) (v : Value) :
    (s.assignPath name keys v).withoutBuffers = s.withoutBuffers.assignPath name keys v := by
  rw [assignPath, assignPath]
  -- an assignment looks at the variables and never at the buffers
  have hchanged : changedMapping? s.withoutBuffers.numbered v name keys s.withoutBuffers.state.vars
      = changedMapping? s.numbered v name keys s.state.vars := rfl
  rw [hchanged]
  cases changedMapping? s.numbered v name keys s.state.vars with
  | none => rfl
  | some changed => rfl

theorem withoutBuffers_assign (s : Session) (name : String) (v : Value) :
    (s.assign name v).withoutBuffers = s.withoutBuffers.assign name v := by
  rw [assign, assign]
  cases (splitAtChar '.' name.toList).map String.ofList with
  | nil => rfl
  | cons first keys => exact withoutBuffers_assignPath s first keys v

theorem withoutBuffers_assignAll (s : Session) (front : String) (entries : List (Key × Value)) :
    (s.assignAll front entries).withoutBuffers = s.withoutBuffers.assignAll front entries := by
  induction entries generalizing s with
  | nil => rfl
  | cons entry rest ih =>
    have hfirst := withoutBuffers_assign s (front ++ entry.1.plain) entry.2
    have hrest := ih (s.assign (front ++ entry.1.plain) entry.2)
    rw [hfirst] at hrest
    exact hrest

theorem buffers_assignPath (s : Session) (name : String) (keys : List String) (v : Value) :
    (s.assignPath name keys v).state.buffers = s.state.buffers := by
  rw [assignPath]
  split
  · rfl
  · rfl

theorem buffers_assign (s : Session) (name : String) (v : Value) :
    (s.assign name v).state.buffers = s.state.buffers := by
  rw [assign]
  split
  · exact buffers_assignPath ..
  · rfl

theorem buffers_assignAll (s : Session) (front : String) (entries : List (Key × Value)) :
    (s.assignAll front entries).state.buffers = s.state.buffers := by
  induction entries generalizing s with
  | nil => rfl
  | cons entry rest ih => exact (ih _).trans (buffers_assign ..)

theorem withoutBuffers_recorded (s : Session) (block : String) :
    (s.recorded block).withoutBuffers = s.withoutBuffers.recorded block := by
  have hdebug : s.withoutBuffers.config.debug = s.config.debug := rfl
  rw [recorded, recorded, hdebug]
  by_cases h : s.config.debug = true
  · rw [if_pos h, if_pos h]
    rfl
  · rw [if_neg h, if_neg h]

theorem state_recorded (s : Session) (block : String) : (s.recorded block).state = s.state := by
  rw [recorded]
  split
  · rfl
  · rfl

end Session

/-! ## One operation -/

theorem Session.exists_of_run_eq_ok {α : Type} {s s' : Session} {rendering : Rendering α} {a : α}
    (h : s.run rendering = (.ok a, s')) :
    ∃ state, rendering.run.run s.state = (.ok a, state) ∧ s' = { s with state } := by
  rw [run] at h
  cases hrun : rendering.run.run s.state with
  | mk outcome state =>
    rw [hrun] at h
    obtain ⟨houtcome, rfl⟩ := Prod.mk.inj h
    cases outcome with
    | error e => cases houtcome
    | ok rendered =>
      cases houtcome
      exact ⟨state, rfl, rfl⟩

/-- The text of a block is what it has accumulated. -/
theorem Session.text_of_locate {s : Session} {block : String} {path : BlockPath} {name : Label}
    {children : Children} (h : s.locate block = .ok (some (path, .node (.block name children)))) :
    (s.text block).1 = .ok (String.join (s.state.buffer path)) := by
  rw [text, h]
  simp only [Node.render]
  rfl

/-- What is shown for a block is its text where no debug report is asked for. -/
theorem Session.out_eq_text (s : Session) (h : (s.config.debug && s.config.debugOutput) = false)
    (block : String) : s.out block = s.text block := by
  rw [out, h]
  rfl

namespace Chronicle

/-- The chronicle of a session with a history. -/
def of (s : Session) (history : List Event) : Chronicle := ⟨s.withoutBuffers, history⟩

/-- A rendering of a session hands out what the chronicle delivers. -/
theorem deliver_of {rendering : Rendering String} {outlining : Outlining (List Part)}
    (hdelivers : rendering.Delivers outlining) {s s' : Session} {text : String}
    (h : s.run rendering = (.ok text, s')) {history : List Event} (hs : s.state.Holds history) :
    ∃ history', (of s history).deliver outlining = .ok (text, of s' history') ∧
      s'.state.Holds history' := by
  obtain ⟨state, hrun, rfl⟩ := s.exists_of_run_eq_ok h
  obtain ⟨parts, hparts, hholds⟩ := hdelivers s.state text state hrun
  obtain ⟨htext, hstate⟩ := hholds history hs
  have hvars : outlining.run (of s history).session.state.vars = .ok (parts, state.vars) := hparts
  refine ⟨_, ?_, hstate⟩
  rw [deliver, hvars, ← htext]
  rfl

theorem recorded_of (s : Session) (history : List Event) (block : String) :
    (of s history).recorded block = of (s.recorded block) history := by
  rw [of, of, s.withoutBuffers_recorded block]
  rfl

theorem holds_recorded {s : Session} {history : List Event} (hs : s.state.Holds history)
    (block : String) : (s.recorded block).state.Holds history := by
  rw [s.state_recorded block]
  exact hs

/-- Parsing a block in a session is parsing it in the chronicle. -/
theorem parse_of {s s' : Session} {block : String} (h : s.parse block = (.ok (), s'))
    {history : List Event} (hs : s.state.Holds history) :
    ∃ history', (of s history).parse block = .ok (of s' history') ∧ s'.state.Holds history' := by
  have hlocate : (of s history).session.locate block = s.locate block := rfl
  rw [Session.parse] at h
  rw [parse, hlocate]
  cases hplace : s.locate block with
  | error e =>
    rw [hplace] at h
    cases h
  | ok found =>
    rw [hplace] at h
    rcases found with _ | ⟨path, node | nodes⟩
    · cases h
      exact ⟨history, congrArg Except.ok (recorded_of s history block), holds_recorded hs block⟩
    · cases node with
      | block name children =>
        obtain ⟨parsed, hrun, rfl⟩ : ∃ parsed,
            s.run (parseBlock s.host path children) = (.ok (), parsed) ∧
              s' = parsed.recorded block := by
          cases hrun : s.run (parseBlock s.host path children) with
          | mk outcome parsed =>
            simp only [hrun] at h
            cases outcome with
            | error e => cases h
            | ok _ => exact ⟨parsed, rfl, (Prod.mk.inj h).2.symm⟩
        obtain ⟨state, hstate, rfl⟩ := s.exists_of_run_eq_ok hrun
        obtain ⟨parts, hparts, hholds⟩ := holds_of_parseBlock hstate
        -- the chronicle has the same variables, so it outlines the same parts
        have hvars : (outlineChildren (of s history).session.host path children).run
            (of s history).session.state.vars = .ok (parts, state.vars) := hparts
        refine ⟨_, ?_, holds_recorded (hholds history hs) block⟩
        simp only [deliver, hvars, ok_bind]
        rw [← recorded_of]
        rfl
      | _ => cases h
    · cases h

/-- What a block delivers is what is outstanding for it. -/
theorem deliver_block (s : Session) (history : List Event) (path : BlockPath) (name : Label)
    (children : Children) :
    (of s history).deliver ((Node.block name children).outline s.host path)
      = .ok (outstanding path history, (of s history).note (.drained path)) := by
  -- a block is the only part of its own outline
  have hrun : ((Node.block name children).outline s.host path).run s.state.vars
      = .ok ([.place path], s.state.vars) := by
    rw [Node.outline]
    rfl
  have hvars : ((Node.block name children).outline s.host path).run
      (of s history).session.state.vars = .ok ([.place path], s.state.vars) := hrun
  rw [deliver, hvars]
  simp only [deliver_place, deliver_nil, String.append_empty]
  rfl

/-- Handing out the text of a block in a session is handing it out in the chronicle. -/
theorem text_of {s s' : Session} {block text : String} (h : s.text block = (.ok text, s'))
    {history : List Event} (hs : s.state.Holds history) :
    ∃ history', (of s history).text block = .ok (text, of s' history') ∧
      s'.state.Holds history' := by
  have hlocate : (of s history).session.locate block = s.locate block := rfl
  rw [Session.text] at h
  rw [Chronicle.text, hlocate]
  cases hplace : s.locate block with
  | error e =>
    rw [hplace] at h
    cases h
  | ok found =>
    rw [hplace] at h
    rcases found with _ | ⟨path, node | nodes⟩
    · cases h
      exact ⟨history, rfl, hs⟩
    -- any node delivers its outline; for a block this is what is outstanding for it
    · have hdelivers := node.render_delivers s.host path
      obtain ⟨history', hdeliver, hs'⟩ := deliver_of hdelivers h hs
      cases node with
      | block name children =>
        rw [deliver_block] at hdeliver
        exact ⟨history', hdeliver, hs'⟩
      | _ => exact ⟨history', hdeliver, hs'⟩
    · cases h
      exact ⟨history, rfl, hs⟩

/-- Resetting a block in a session is resetting it in the chronicle. -/
theorem reset_of {s s' : Session} {block : String} (h : s.reset block = .ok s')
    {history : List Event} (hs : s.state.Holds history) :
    ∃ history', (of s history).reset block = .ok (of s' history') ∧ s'.state.Holds history' := by
  have hlocate : (of s history).session.locate block = s.locate block := rfl
  obtain ⟨found, hfound, h⟩ := exists_of_bind_eq_ok h
  rw [reset, hlocate, hfound]
  rcases found with _ | ⟨path, node | nodes⟩
  · cases h
    exact ⟨history, rfl, hs⟩
  · cases node with
    | block name children =>
      cases h
      exact ⟨history ++ [.drained path], rfl, hs.clear path⟩
    | _ => cases h
  · cases h

theorem perform_text_of {s s' : Session} {block : String} {output : Option String}
    (h : s.perform (.text block) = (.ok output, s')) {history : List Event}
    (hs : s.state.Holds history) :
    ∃ history', (of s history).perform (.text block) = .ok (output, of s' history') ∧
      s'.state.Holds history' := by
  obtain ⟨htext, rfl⟩ := Prod.mk.inj h
  obtain ⟨text, hok, rfl⟩ := exists_of_map_eq_ok htext
  obtain ⟨history', htext, hs'⟩ := text_of (Prod.ext hok rfl) hs
  refine ⟨history', ?_, hs'⟩
  rw [perform, htext]
  rfl

/-- With no debug report in its way, an operation that a session performs is the one that the
    chronicle performs. -/
theorem perform_of {s s' : Session} {operation : Operation} {output : Option String}
    (hout : (s.config.debug && s.config.debugOutput) = false)
    (h : s.perform operation = (.ok output, s')) {history : List Event}
    (hs : s.state.Holds history) :
    ∃ history', (of s history).perform operation = .ok (output, of s' history') ∧
      s'.state.Holds history' := by
  -- assignments leave the buffers as they are, and the other operations have lemmas of their own
  cases operation with
  | assign name v =>
    cases h
    refine ⟨history, ?_, hs.of_buffers_eq (s.buffers_assign name v)⟩
    rw [of, of, s.withoutBuffers_assign name v]
    rfl
  | assignAll front entries =>
    cases h
    refine ⟨history, ?_, hs.of_buffers_eq (s.buffers_assignAll front entries)⟩
    rw [of, of, s.withoutBuffers_assignAll front entries]
    rfl
  | parse block =>
    obtain ⟨hparse, rfl⟩ := Prod.mk.inj h
    obtain ⟨parsed, hok, rfl⟩ := exists_of_map_eq_ok hparse
    obtain ⟨history', hparse, hs'⟩ := parse_of (Prod.ext hok rfl) hs
    refine ⟨history', ?_, hs'⟩
    rw [perform, hparse]
    rfl
  | text block => exact perform_text_of h hs
  | out block =>
    rw [Session.perform, s.out_eq_text hout block] at h
    exact perform_text_of h hs
  | reset block =>
    rw [Session.perform] at h
    cases hreset : s.reset block with
    | error e =>
      rw [hreset] at h
      cases h
    | ok left =>
      rw [hreset] at h
      cases h
      obtain ⟨history', hreset, hs'⟩ := reset_of hreset hs
      refine ⟨history', ?_, hs'⟩
      rw [perform, hreset]
      rfl

/-! ## Any operations -/

/-- With no debug report in its way, a run of operations none of which fails is a run of the
    chronicle, whose history is held at the end. -/
theorem performAll_of {operations : List Operation} {outputs : List (Option String)} {s : Session}
    (hout : (s.config.debug && s.config.debugOutput) = false)
    (h : (s.performAll operations).1 = outputs.map .ok) {history : List Event}
    (hs : s.state.Holds history) :
    ∃ history', (of s history).performAll operations
        = .ok (outputs, of (s.performAll operations).2 history') ∧
      (s.performAll operations).2.state.Holds history' := by
  induction operations generalizing s outputs history with
  | nil =>
    rw [List.map_eq_nil_iff.1 h.symm]
    exact ⟨history, rfl, hs⟩
  | cons operation rest ih =>
    obtain ⟨output, others, rfl, hfirst, hrest⟩ := List.map_eq_cons_iff.1 h.symm
    -- the invariant is that the buffers hold what the history says is outstanding
    obtain ⟨history', hperform, hs'⟩ := perform_of hout (Prod.ext hfirst.symm rfl) hs
    -- no operation turns the debug report on
    have hsame := s.sameSettings_perform operation
    rw [← hsame.debug_eq, ← hsame.debugOutput_eq] at hout
    obtain ⟨history'', hrest, hs''⟩ := ih hout hrest.symm hs'
    refine ⟨history'', ?_, hs''⟩
    rw [performAll, hperform, ok_bind]
    simp only [hrest, ok_bind]
    rfl

end Chronicle

/-- What blocks hand out is what they have rendered since they were last drained: whatever is done
    with a new session, as long as nothing fails and no debug report is shown, it gives what the
    chronicle gives, and at the end each block hands out what the history says is outstanding. -/
theorem text_of_performAll {fileName sourceHash : String} {config : Config} {callbacks : Registry}
    {compiled : CompiledTemplate} {operations : List Operation} {outputs : List (Option String)}
    {s : Session} (hout : (config.debug && config.debugOutput) = false)
    (h : (Session.start fileName config callbacks sourceHash compiled).performAll operations
      = (outputs.map .ok, s)) :
    ∃ history,
      Chronicle.performAll ⟨.start fileName config callbacks sourceHash compiled, []⟩ operations
        = .ok (outputs, .of s history) ∧
      ∀ block path name children,
        s.locate block = .ok (some (path, .node (.block name children))) →
          (s.text block).1 = .ok (outstanding path history) := by
  have hstart : (Session.start fileName config callbacks sourceHash compiled).state.Holds [] :=
    fun path => rfl
  obtain ⟨history, hperform, hs⟩ := Chronicle.performAll_of hout (congrArg Prod.fst h) hstart
  rw [h] at hperform hs
  refine ⟨history, hperform, ?_⟩
  intro block path name children hlocate
  rw [Session.text_of_locate hlocate, hs path]

/-- A template whose loop reaches a block once for each of its entries. -/
def loopedTemplate : CompiledTemplate where
  blocks := [(.text "PAGE", .block (.text "PAGE")
    [(.int 0, .data [.literal "("]),
      (.int 1, .loop ⟨none, .text "x", .mk (.text "ROWS") (.text "ROWS") [] []⟩
        [(.text "ROW", .block (.text "ROW")
          [(.int 0, .data [.tag (.mk (.text "V") (.text "V") [] []), .literal ";"])])]),
      (.int 2, .data [.literal ")"])])]
  index := [("PAGE", [.text "PAGE"]), ("PAGE.ROW", [.text "PAGE", .number (.int 1), .text "ROW"])]
  tags := [.text "V"]

/-- Two rows are parsed and then the page twice, with two entries in the loop. -/
def loopedOperations : List Operation :=
  [.assign "ROWS" (.sequence (.host 0) [.int 1, .int 2]), .assign "V" (.int 7),
    .parse "PAGE.ROW", .assign "V" (.int 8), .parse "PAGE.ROW", .parse "PAGE", .parse "PAGE",
    .text "PAGE.ROW", .text "PAGE"]

/-- The first page gets both rows at the first entry of the loop, and the second page none. -/
theorem text_of_performAll_of_loop :
    ∃ s history,
      Chronicle.performAll ⟨.start "page" default .empty "0" loopedTemplate, []⟩ loopedOperations
        = .ok ([none, none, none, none, none, none, none, some "", some "(7;8;)()"],
          .of s history) ∧
      ∀ block path name children,
        s.locate block = .ok (some (path, .node (.block name children))) →
          (s.text block).1 = .ok (outstanding path history) := by
  have hrun : ((Session.start "page" default .empty "0" loopedTemplate).performAll
      loopedOperations).1
        = [none, none, none, none, none, none, none, some "", some "(7;8;)()"].map .ok := rfl
  exact ⟨_, text_of_performAll rfl (Prod.ext hrun rfl)⟩

end BlockTemplate
