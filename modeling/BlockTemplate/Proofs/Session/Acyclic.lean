import BlockTemplate.Proofs.Session.Footprint
import BlockTemplate.Proofs.Session.Operation
import BlockTemplate.Proofs.Text.Scanning
import BlockTemplate.Proofs.Value.Acyclic
import Mathlib

/-!
# Sessions without cycles

In a session of a compiled template no mapping comes to lie within itself, as long as the host
assigns values that have nothing in common with each other. An assignment puts such a value below
the mappings that have been there, and a loop binds its variables to what is in reach already.

## Key results

- `Session.IsOrdered.isAcyclic`: an ordered session has no cycles in its variables
- `Session.isOrdered_assignPath`, `Session.isOrdered_parse`: single operations leave it ordered
- `Session.isOrdered_performAll`: so do all operations together
-/

namespace BlockTemplate

open RenderState

/-- The values that an operation brings into a session. -/
def Operation.values : Operation → List Value
  | .assign _ v => [v]
  | .assignAll _ entries => entries.map (·.2)
  | _ => []

/-- The given origins together with those of values. -/
def originsWith (given : List Origin) : List Value → List Origin
  | [] => given
  | v :: rest => originsWith (v.origins ++ given) rest

/-- Whether each value is new to the given ones and to those before it. -/
def AreNew (given : List Origin) : List Value → Prop
  | [] => True
  | v :: rest => v.IsNew given ∧ AreNew (v.origins ++ given) rest

section
variable {given : List Origin}

theorem originsWith_append (given : List Origin) (first second : List Value) :
    originsWith given (first ++ second) = originsWith (originsWith given first) second := by
  induction first generalizing given with
  | nil => rfl
  | cons v first ih => exact ih (v.origins ++ given)

theorem areNew_append {first second : List Value} :
    AreNew given (first ++ second)
      ↔ AreNew given first ∧ AreNew (originsWith given first) second := by
  induction first generalizing given with
  | nil => exact (and_iff_right trivial).symm
  | cons v first ih =>
    rw [List.cons_append, AreNew, AreNew, ih, and_assoc]
    rfl

end

namespace Session

variable {s s' : Session} {given : List Origin}

/-- Whether the mappings in reach of a session can be ranked, in the session of a compiled template
    whose callbacks give nothing but what they are given. -/
structure IsOrdered (given : List Origin) (s : Session) : Prop where
  compiled : ∃ code, compileTemplate code = .ok s.compiled
  callbacks : ∀ P, s.callbacks.StaysWithin P
  ranked : ∃ rank, ∀ c ∈ s.containers, c.IsRanked rank given s.numbered

/-- Only the variables, the globals and the template matter. -/
theorem IsOrdered.of_eq (h : s.IsOrdered given) (hcompiled : s'.compiled = s.compiled)
    (hcallbacks : s'.callbacks = s.callbacks) (hnumbered : s'.numbered = s.numbered)
    (hcontainers : s'.containers = s.containers) : s'.IsOrdered given := by
  obtain ⟨rank, hrank⟩ := h.ranked
  refine ⟨hcompiled ▸ h.compiled, hcallbacks ▸ h.callbacks, rank, ?_⟩
  rw [hcontainers, hnumbered]
  exact hrank

/-- In an ordered session the variables have no cycles. -/
theorem IsOrdered.isAcyclic (h : s.IsOrdered given) :
    (Value.mapping .temporary s.state.vars).IsAcyclic := by
  obtain ⟨rank, hrank⟩ := h.ranked
  have hdescends : (Value.mapping .temporary s.state.vars).Within (Value.Descends rank) := by
    intro c hc
    rcases List.mem_cons.1 hc with rfl | hc
    · intro hshared
      cases hshared
    · exact (hrank c (List.mem_append_left _ hc)).descends
  exact isAcyclic_of_descends hdescends

/-! ## Assigning -/

/-- Bringing a mapping of the variables up to date leaves all in reach ranked. -/
theorem isRanked_share {rank : Origin → Nat} {numbered : Nat} {origin : Origin}
    {contents : List (Key × Value)} (h : ∀ c ∈ s.containers, c.IsRanked rank given numbered)
    (hshared : origin.isShared)
    (hmem : Value.mapping origin contents ∈ entriesContainers s.state.vars) :
    ∀ c ∈ (s.share origin contents).containers, c.IsRanked rank given numbered := by
  obtain ⟨hvars, hglobals⟩ := List.forall_mem_append.1 h
  have hcontents : (Value.mapping origin contents).Within (Value.IsRanked rank given numbered) :=
    fun c hc => hvars c (entriesContainers_trans hmem hc)
  have hself := hvars _ hmem
  have hsharedVars := within_shareEntries hcontents (fun _ hc => hc.share hshared hself) hvars
  have hsharedGlobals := Value.Within.share hcontents (fun _ hc => hc.share hshared hself) hglobals
  have hne : Origin.globals ≠ origin := by
    rintro rfl
    cases hshared
  rw [host, Value.share, if_neg hne] at hsharedGlobals
  exact List.forall_mem_append.2 ⟨hsharedVars, hsharedGlobals⟩

/-- An assignment of a value that is new to the session leaves it ordered. -/
theorem isOrdered_assignPath (h : s.IsOrdered given) {v : Value} (hv : v.IsNew given)
    (name : String) (keys : List String) :
    (s.assignPath name keys v).IsOrdered (v.origins ++ given) := by
  obtain ⟨rank, hrank⟩ := h.ranked
  obtain ⟨hvars, hglobals⟩ := List.forall_mem_append.1 hrank
  obtain ⟨rank', hwritten, hkept⟩ := exists_isRanked_setPathIn hv name keys hvars
  have hwrittenSession : ∀ c ∈ ({ s with
        state := { s.state with vars := setPathIn s.numbered v name keys s.state.vars }
        numbered := s.numbered + keys.length } : Session).containers,
      c.IsRanked rank' (v.origins ++ given) (s.numbered + keys.length) :=
    List.forall_mem_append.2 ⟨hwritten, fun c hc => hkept c (hglobals c hc)⟩
  rw [assignPath]
  split
  · rename_i origin contents heq
    have hshared := isShared_of_changedMapping? heq
    have hmem := mem_containers_of_changedMapping? heq
    exact ⟨h.compiled, h.callbacks, rank', isRanked_share hwrittenSession hshared hmem⟩
  · exact ⟨h.compiled, h.callbacks, rank', hwrittenSession⟩

theorem isOrdered_assign (h : s.IsOrdered given) {v : Value} (hv : v.IsNew given) (name : String) :
    (s.assign name v).IsOrdered (v.origins ++ given) := by
  obtain ⟨first, keys, hsplit⟩ := List.exists_cons_of_ne_nil (splitAtChar_ne_nil '.' name.toList)
  rw [assign, hsplit]
  exact isOrdered_assignPath h hv _ _

theorem isOrdered_assignAll (h : s.IsOrdered given) {front : String} {entries : List (Key × Value)}
    (hnew : AreNew given (entries.map (·.2))) :
    (s.assignAll front entries).IsOrdered (originsWith given (entries.map (·.2))) := by
  induction entries generalizing s given with
  | nil => exact h
  | cons entry rest ih =>
    obtain ⟨hv, hrest⟩ := hnew
    exact ih (isOrdered_assign h hv _) hrest

/-! ## Operations of blocks -/

theorem isOrdered_recorded (h : s.IsOrdered given) (block : String) :
    (s.recorded block).IsOrdered given := by
  rw [recorded]
  split
  · exact h.of_eq rfl rfl rfl rfl
  · exact h

/-- A parse binds loop variables to what is in reach. -/
theorem isOrdered_parse (h : s.IsOrdered given) (block : String) :
    (s.parse block).2.IsOrdered given := by
  obtain ⟨code, ht⟩ := h.compiled
  obtain ⟨rank, hrank⟩ := h.ranked
  rw [parse]
  obtain hnone | ⟨path, name, children, hlocate⟩ := findsBlock_of_compileTemplate ht block
  · rw [hnone]
    exact isOrdered_recorded h block
  · have hloops : childrenLoops children ⊆ childrenAllLoops s.compiled.blocks :=
      List.Subset.trans (childrenLoops_subset_all children)
        (CompiledTemplate.allLoops_locate (eq_ok_of_mapError_eq_ok hlocate))
    have hvars : s.state.HoldsWithin (Value.IsRanked rank given s.numbered) := by
      intro entry hentry c hc
      exact hrank c (List.mem_append_left _ (mem_entriesContainers.2 ⟨entry, hentry, hc⟩))
    have hglobals : s.host.globals.Within (Value.IsRanked rank given s.numbered) :=
      fun c hc => hrank c (List.mem_append_right _ hc)
    have hrendered := (renderChildren_holdsWithin (h.callbacks _) hglobals path
      (fun header hheader => isConfined_of_mem_allLoops ht header (hloops hheader)) s.state hvars).1
    -- whether the parse succeeds or fails, the variables are those that rendering has left
    have hafter {state : RenderState}
        (hstate : state.HoldsWithin (Value.IsRanked rank given s.numbered)) :
        ({ s with state } : Session).IsOrdered given :=
      ⟨h.compiled, h.callbacks, rank, forall_mem_containers hstate hglobals⟩
    have hrun := s.run_parseBlock path children
    rw [hlocate]
    simp only [hrun]
    rcases hrender : (renderChildren s.host path children).run.run s.state with ⟨outcome, rendered⟩
    rw [hrender] at hrendered
    cases outcome with
    | ok text =>
      have haccumulated : (rendered.accumulate path text).HoldsWithin
          (Value.IsRanked rank given s.numbered) := hrendered
      exact isOrdered_recorded (hafter haccumulated) block
    | error e => exact hafter hrendered

theorem isOrdered_text (h : s.IsOrdered given) (block : String) :
    (s.text block).2.IsOrdered given := by
  obtain ⟨code, ht⟩ := h.compiled
  obtain hnone | ⟨path, name, children, hlocate⟩ := findsBlock_of_compileTemplate ht block
  · rw [text, hnone]
    exact h
  · obtain ⟨hstate, hvars, -⟩ := footprint_text hlocate
    have hcontainers : (s.text block).2.containers = s.containers := by
      rw [hstate, containers, containers, hvars]
      rfl
    exact h.of_eq (by rw [hstate]) (by rw [hstate]) (by rw [hstate]) hcontainers

theorem isOrdered_of_reset (h : s.IsOrdered given) {block : String}
    (hreset : s.reset block = .ok s') : s'.IsOrdered given := by
  obtain ⟨place, -, hreset⟩ := exists_of_bind_eq_ok hreset
  split at hreset
  · cases hreset
    exact h
  · cases hreset
    exact h.of_eq rfl rfl rfl rfl
  · cases hreset

/-! ## All operations -/

theorem isOrdered_perform (h : s.IsOrdered given) {operation : Operation}
    (hnew : AreNew given operation.values) :
    (s.perform operation).2.IsOrdered (originsWith given operation.values) := by
  cases operation with
  | assign name v => exact isOrdered_assign h hnew.1 name
  | assignAll front entries => exact isOrdered_assignAll h hnew
  | parse block => exact isOrdered_parse h block
  | text block => exact isOrdered_text h block
  | out block =>
    rw [perform, out]
    split
    · exact h
    · exact isOrdered_text h block
  | reset block =>
    rw [perform]
    split
    · rename_i heq
      exact isOrdered_of_reset h heq
    · exact h

theorem isOrdered_performAll {operations : List Operation} (h : s.IsOrdered given)
    (hnew : AreNew given (operations.flatMap Operation.values)) :
    (s.performAll operations).2.IsOrdered
      (originsWith given (operations.flatMap Operation.values)) := by
  induction operations generalizing s given with
  | nil => exact h
  | cons operation rest ih =>
    rw [List.flatMap_cons, areNew_append] at hnew
    rw [List.flatMap_cons, originsWith_append]
    exact ih (isOrdered_perform h hnew.1) hnew.2

/-- A session starts ordered, if the host globals can be ranked. -/
theorem isOrdered_start (fileName sourceHash : String) {config : Config} {callbacks : Registry}
    {code : List Char} {t : CompiledTemplate} (ht : compileTemplate code = .ok t)
    (hcallbacks : ∀ P, callbacks.StaysWithin P)
    (hglobals : (Value.mapping .globals config.globals).IsNew []) :
    (start fileName config callbacks sourceHash t).IsOrdered
      (Value.mapping .globals config.globals).origins := by
  obtain ⟨rank, hrank⟩ := hglobals.ranked
  refine ⟨⟨code, ht⟩, hcallbacks, rank, ?_⟩
  intro c hc
  have hc : c ∈ (Value.mapping .globals config.globals).containers := hc
  constructor
  · exact hrank c hc
  · intro o ho
    have hmem := Value.origins_trans hc ho
    exact (hglobals.origins o hmem).isKnown hmem

end Session

end BlockTemplate
