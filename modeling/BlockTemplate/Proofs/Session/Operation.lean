import BlockTemplate.Proofs.Outcome
import BlockTemplate.Session.Basic

/-!
# Operations of a session

What the host does with a session, one operation after the other. A host that carries on after a
failed operation does so in the session that the failed operation has left.

## Key results

- `Session.sameSettings_perform`: of the configuration only the globals change
-/

namespace BlockTemplate

/-- An operation of a session. -/
inductive Operation where
  | assign (name : String) (v : Value)
  | assignAll (front : String) (entries : List (Key × Value))
  | parse (block : String)
  | text (block : String)
  | out (block : String)
  | reset (block : String)

namespace Session

/-- Perform an operation: the text that it hands out, if any, and the session afterwards. -/
def perform (s : Session) : Operation → Except SessionError (Option String) × Session
  | .assign name v => (.ok none, s.assign name v)
  | .assignAll front entries => (.ok none, s.assignAll front entries)
  | .parse block => ((s.parse block).1.map fun _ => none, (s.parse block).2)
  | .text block => ((s.text block).1.map some, (s.text block).2)
  | .out block => ((s.out block).1.map some, (s.out block).2)
  | .reset block =>
    match s.reset block with
    | .ok s => (.ok none, s)
    | .error e => (.error e, s)

/-- Perform operations one after the other: what each of them gives, and the session afterwards. -/
def performAll (s : Session) : List Operation → List (Except SessionError (Option String)) × Session
  | [] => ([], s)
  | operation :: rest =>
    let (outcome, s) := s.perform operation
    let (outcomes, s) := s.performAll rest
    (outcome :: outcomes, s)

/-! ## What stays -/

/-- Whether two configurations differ in their globals at most. -/
def SameSettings (s s' : Session) : Prop :=
  { s'.config with globals := s.config.globals } = s.config

theorem SameSettings.refl (s : Session) : s.SameSettings s := rfl

theorem SameSettings.trans {s s' s'' : Session} (h : s.SameSettings s')
    (h' : s'.SameSettings s'') : s.SameSettings s'' := by
  unfold SameSettings at h h' ⊢
  rw [← h, ← h']

theorem SameSettings.debug_eq {s s' : Session} (h : s.SameSettings s') :
    s'.config.debug = s.config.debug := by
  have hdebug := congrArg Config.debug h
  exact hdebug

theorem SameSettings.debugOutput_eq {s s' : Session} (h : s.SameSettings s') :
    s'.config.debugOutput = s.config.debugOutput := by
  have hreport := congrArg Config.debugOutput h
  exact hreport

theorem sameSettings_assignPath (s : Session) (name : String) (keys : List String) (v : Value) :
    s.SameSettings (s.assignPath name keys v) := by
  rw [assignPath]
  split
  · rfl
  · rfl

theorem sameSettings_assign (s : Session) (name : String) (v : Value) :
    s.SameSettings (s.assign name v) := by
  rw [assign]
  split
  · exact sameSettings_assignPath ..
  · rfl

theorem sameSettings_assignAll (s : Session) (front : String) (entries : List (Key × Value)) :
    s.SameSettings (s.assignAll front entries) := by
  induction entries generalizing s with
  | nil => rfl
  | cons entry rest ih => exact (sameSettings_assign ..).trans (ih _)

theorem sameSettings_recorded (s : Session) (block : String) :
    s.SameSettings (s.recorded block) := by
  rw [recorded]
  split
  · rfl
  · rfl

theorem sameSettings_run {α : Type} (s : Session) (rendering : Rendering α) :
    s.SameSettings (s.run rendering).2 := rfl

theorem sameSettings_parse (s : Session) (block : String) : s.SameSettings (s.parse block).2 := by
  rw [parse]
  split
  · rfl
  · exact sameSettings_recorded ..
  · rename_i path _ children _
    -- a parse that fails records nothing, and one that succeeds only the name of the block
    have hrun := sameSettings_run s (parseBlock s.host path children)
    split
    · rename_i s' heq
      rw [heq] at hrun
      exact hrun.trans (sameSettings_recorded s' block)
    · rename_i e s' heq
      rw [heq] at hrun
      exact hrun
  · rfl

theorem sameSettings_text (s : Session) (block : String) : s.SameSettings (s.text block).2 := by
  rw [text]
  split
  · rfl
  · exact sameSettings_run ..
  · rfl

theorem sameSettings_out (s : Session) (block : String) : s.SameSettings (s.out block).2 := by
  rw [out]
  split
  · rfl
  · exact sameSettings_text ..

theorem sameSettings_of_reset {s s' : Session} {block : String} (h : s.reset block = .ok s') :
    s.SameSettings s' := by
  obtain ⟨place, _, h⟩ := exists_of_bind_eq_ok h
  split at h
  · cases h
    rfl
  · cases h
    rfl
  · exact nomatch h

/-- An operation changes nothing of the configuration but the globals. -/
theorem sameSettings_perform (s : Session) (operation : Operation) :
    s.SameSettings (s.perform operation).2 := by
  cases operation with
  | assign name v => exact sameSettings_assign s name v
  | assignAll front entries => exact sameSettings_assignAll s front entries
  | parse block => exact sameSettings_parse s block
  | text block => exact sameSettings_text s block
  | out block => exact sameSettings_out s block
  | reset block =>
    rw [perform]
    split
    · rename_i heq
      exact sameSettings_of_reset heq
    · rfl

end Session

end BlockTemplate
