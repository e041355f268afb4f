import BlockTemplate.Proofs.Render.Lending
import BlockTemplate.Proofs.Render.Delivery
import BlockTemplate.Proofs.Stored.Reference

/-!
# The footprint of rendering

Rendering writes to the variables of the loops that it goes through, and it empties the buffers of
the blocks that it reaches. All other variables and buffers stay as they are. The values that the
loops bind are found below the variables and the host globals, so that no array and no object in
reach is another one afterwards.

## Key results

- `renderChildren_touches`: rendering writes to the variables of loops and empties buffers of blocks
- `renderChildren_holdsWithin`: rendering binds what has a property that everything in reach has
-/

namespace BlockTemplate

/-- The variables that a loop binds. -/
def LoopHeader.vars (header : LoopHeader) : List Key :=
  header.valueVar.key?.toList ++ (header.boundKey?.bind Json.key?).toList

/-- The variables of the loops among children, those within blocks apart. -/
def childrenLoopVars (children : List (Key × Node)) : List Key :=
  (childrenLoops children).flatMap LoopHeader.vars

/-- The variables beside those of the given names. -/
def varsBeside (names : List Key) (vars : List (Key × Value)) : List (Key × Value) :=
  vars.filter fun entry => !names.contains entry.1

theorem varsBeside_upsert {names : List Key} {key : Key} (h : names.contains key = true) (v : Value)
    (vars : List (Key × Value)) :
    varsBeside names (upsert key v vars) = varsBeside names vars := by
  induction vars with
  | nil => simp [upsert, varsBeside, h]
  | cons entry rest ih =>
    rw [upsert]
    by_cases hkey : (entry.1 == key) = true
    · -- the entry in the place of the key is left out as well
      have hentry : names.contains entry.1 = true := (Key.contains_congr hkey).trans h
      rw [if_pos hkey, varsBeside, varsBeside, List.filter_cons_of_neg (by simpa using hentry),
        List.filter_cons_of_neg (by simpa using hentry)]
    · rw [varsBeside, varsBeside] at ih
      rw [if_neg hkey, varsBeside, varsBeside, List.filter_cons, List.filter_cons, ih]

namespace RenderState

/-- Whether a state differs from another one in the variables of the given names at most, and in the
    buffers at the given places, which can only have become empty. -/
structure Touches (names : List Key) (places : List BlockPath) (before after : RenderState) :
    Prop where
  vars : varsBeside names after.vars = varsBeside names before.vars
  buffers : ∀ path, after.buffer path = before.buffer path
    ∨ after.buffer path = [] ∧ ∃ place ∈ places, place == path

variable {names : List Key} {places : List BlockPath} {before s : RenderState}

theorem Touches.refl (s : RenderState) : Touches names places s s := ⟨rfl, fun _ => .inl rfl⟩

theorem Touches.bindVar (h : Touches names places before s) {key : Key}
    (hkey : names.contains key = true) (v : Value) :
    Touches names places before (s.bindVar key v) :=
  ⟨(varsBeside_upsert hkey v s.vars).trans h.vars, h.buffers⟩

theorem Touches.clear (h : Touches names places before s) {place : BlockPath}
    (hplace : place ∈ places) : Touches names places before (s.clear place) := by
  refine ⟨h.vars, fun path => ?_⟩
  rw [buffer_clear]
  by_cases heq : (place == path) = true
  · rw [if_pos heq]
    exact .inr ⟨rfl, place, hplace, heq⟩
  · rw [if_neg heq]
    exact h.buffers path

/-- Whether all containers in the variables have a property. -/
def HoldsWithin (P : Value → Prop) (s : RenderState) : Prop :=
  ∀ entry ∈ s.vars, entry.2.Within P

theorem HoldsWithin.bindVar {P : Value → Prop} (h : s.HoldsWithin P) (key : Key) {v : Value}
    (hv : v.Within P) : (s.bindVar key v).HoldsWithin P :=
  forall_mem_upsert_of_congr (P := fun _ (v : Value) => v.Within P) (fun _ hv => hv) hv h

end RenderState

open RenderState Rendering

/-! ## Variables and buffers -/

theorem contains_of_mem_loopVars {children : List (Key × Node)} {header : LoopHeader}
    (hheader : header ∈ childrenLoops children) {key : Key} (hkey : key ∈ header.vars) :
    (childrenLoopVars children).contains key = true :=
  List.contains_iff_exists_mem_beq.2
    ⟨key, List.mem_flatMap.2 ⟨header, hheader, hkey⟩, BEq.refl key⟩

/-- Rendering children writes to the variables of the loops among them, and empties buffers of the
    blocks among them. -/
theorem renderChildren_touches (host : Host) (path : BlockPath) (children : List (Key × Node))
    (before : RenderState) :
    (renderChildren host path children).Preserves
      (Touches (childrenLoopVars children) (childrenInnerBlocks path children) before)
      fun _ => True := by
  refine renderChildren_preserves (fun header hheader => ?_) fun place hplace s hs =>
    hs.clear hplace
  intro s hs collection hcollection entries hentries entry hentry
  refine preserves_bindEntry (fun key hkey s hs => ?_) fun label hlabel key hkey s hs => ?_
  · have hmem : key ∈ header.vars :=
      List.mem_append_left _ (Option.mem_toList.2 hkey)
    exact hs.bindVar (contains_of_mem_loopVars hheader hmem) entry.2
  · have hmem : key ∈ header.vars :=
      List.mem_append_right _ (Option.mem_toList.2 (Option.mem_bind_iff.2 ⟨label, hlabel, hkey⟩))
    exact hs.bindVar (contains_of_mem_loopVars hheader hmem) entry.1.toValue

mutual

/-- The blocks in the node at a path stand at the path or below it. -/
theorem Node.prefix_of_mem_innerBlocks {path place : BlockPath} {node : Node}
    (h : place ∈ node.innerBlocks path) : path <+: place := by
  match node with
  | .data _ => exact nomatch h
  | .block _ _ =>
    cases List.mem_singleton.1 h
    exact List.prefix_rfl
  | .loop _ children => exact (below_of_mem_innerBlocks h).1
  | .conditional _ ifChildren elseChildren =>
    obtain h | h := List.mem_append.1 h
    · exact (List.prefix_append path _).trans (below_of_mem_innerBlocks h).1
    · exact (List.prefix_append path _).trans (below_of_mem_innerBlocks h).1

/-- The blocks among the children of the node at a path stand below the path. -/
theorem below_of_mem_innerBlocks {path place : BlockPath} {children : List (Key × Node)}
    (h : place ∈ childrenInnerBlocks path children) : Below path place := by
  match children with
  | [] => exact nomatch h
  | (key, node) :: rest =>
    obtain h | h := List.mem_append.1 h
    · exact below_of_append_prefix (node.prefix_of_mem_innerBlocks h)
    · exact below_of_mem_innerBlocks h

end

/-- A place below another one is another place, for its path is longer. -/
theorem Below.not_beq {path place : BlockPath} (h : Below path place) :
    (place == path) = false := by
  rw [Bool.eq_false_iff]
  intro heq
  have hlength := congrArg List.length (Key.list_beq_iff_canonical_eq.1 heq)
  rw [List.length_map, List.length_map] at hlength
  exact h.2 (h.1.eq_of_length hlength.symm).symm

/-- The block itself is not among those that rendering its children empties. -/
theorem RenderState.Touches.buffer_own {names : List Key} {path : BlockPath}
    {children : List (Key × Node)} {before after : RenderState}
    (h : Touches names (childrenInnerBlocks path children) before after) :
    after.buffer path = before.buffer path := by
  obtain heq | ⟨-, place, hplace, hbeq⟩ := h.buffers path
  · exact heq
  · exact nomatch (below_of_mem_innerBlocks hplace).not_beq.symm.trans hbeq

/-! ## Containers -/

mutual

/-- The literals in what can be stored are scalars. -/
theorem Reference.IsStorable.isConfined :
    ∀ {target : Reference}, target.IsStorable → target.isConfined fun _ => true
  | .mk _ _ _ _, h => callsAreConfined_of_areStorable h.2

theorem callsAreConfined_of_areStorable :
    ∀ {calls : List Call}, CallsAreStorable calls → callsAreConfined (fun _ => true) calls
  | [], _ => rfl
  | .mk _ none _ :: _, h => by
    rw [callsAreConfined]
    exact callsAreConfined_of_areStorable h.2
  | .mk _ (some _) _ :: _, h =>
    Bool.and_eq_true_iff.2
      ⟨argumentsAreConfined_of_areStorable h.2.1, callsAreConfined_of_areStorable h.2.2⟩

theorem argumentsAreConfined_of_areStorable :
    ∀ {arguments : List Argument}, ArgumentsAreStorable arguments →
      argumentsAreConfined (fun _ => true) arguments
  | [], _ => rfl
  | _ :: _, h =>
    Bool.and_eq_true_iff.2
      ⟨h.1.isConfined, argumentsAreConfined_of_areStorable h.2⟩

theorem Argument.IsStorable.isConfined :
    ∀ {argument : Argument}, argument.IsStorable → argument.isConfined fun _ => true
  | .literal _, h => h.1
  | .reference _, h => Reference.IsStorable.isConfined h
  | .text _, _ => rfl

end

section
variable {P : Value → Prop} {host : Host}

theorem within_valueOf {ctx : Context} (hvars : ∀ entry ∈ ctx.vars, entry.2.Within P)
    (hglobals : ctx.globals.Within P) {name : Label} {v : Value} (h : ctx.valueOf name = .ok v) :
    v.Within P := by
  obtain ⟨key, -, h⟩ := exists_of_bind_eq_ok h
  split at h
  · cases h
    exact hglobals
  · cases h
    cases hvalue : valueOf? key ctx.vars with
    | none => exact within_of_isScalar rfl
    | some value =>
      obtain ⟨entry, hentry, rfl, -⟩ := mem_of_valueOf? hvalue
      exact hvars entry hentry

/-- Rendering children binds what has a property that all containers in the variables and in the
    host globals have, if the callbacks pass it on. -/
theorem renderChildren_holdsWithin (hcalls : host.callbacks.StaysWithin P)
    (hglobals : host.globals.Within P) (path : BlockPath) {children : List (Key × Node)}
    (hconfined : ∀ header ∈ childrenLoops children, header.collection.isConfined fun _ => true) :
    (renderChildren host path children).Preserves (HoldsWithin P) fun _ => True := by
  refine renderChildren_preserves (fun header hheader => ?_) fun _ _ _ hs => hs
  intro s hs collection hcollection entries hentries entry hentry
  have hvars : ∀ entry ∈ (s.context host).vars, entry.2.Within P := hs
  have hvalueOf (name : Label) (v : Value) (_ : true) (h : (s.context host).valueOf name = .ok v) :
      v.Within P :=
    within_valueOf hvars hglobals h
  have hcollection : collection.Within P :=
    header.collection.within_resolve hvalueOf hcalls (hconfined header hheader) hcollection
  have hvalue : entry.2.Within P :=
    hcollection.of_subset (Value.containers_loopEntries hentries hentry)
  have hkey : entry.1.toValue.isScalar := by cases entry.1 <;> rfl
  exact preserves_bindEntry (fun key _ s hs => hs.bindVar key hvalue)
    fun label _ key _ s hs => hs.bindVar key (within_of_isScalar hkey)

end

end BlockTemplate
