import BlockTemplate.Proofs.Value.Containers
import Mathlib.Tactic.SplitIfs

/-!
# Where the values of references come from

A reference resolves to something that is found below the names that it mentions, or that a callback
gives out. What all containers below these names have in common, the containers of the result have
as well, if the callbacks pass it on.

## Key results

- `Reference.within_resolve`: a confined reference resolves to something within a property
-/

namespace BlockTemplate

mutual

/-- Whether a reference mentions allowed names only, and its literals are scalars. -/
def Reference.isConfined (allowed : Label → Bool) : Reference → Bool
  | .mk _ name _ calls => allowed name && callsAreConfined allowed calls

def callsAreConfined (allowed : Label → Bool) : List Call → Bool
  | [] => true
  | .mk _ none _ :: rest => callsAreConfined allowed rest
  | .mk _ (some arguments) _ :: rest =>
    argumentsAreConfined allowed arguments && callsAreConfined allowed rest

def argumentsAreConfined (allowed : Label → Bool) : List Argument → Bool
  | [] => true
  | argument :: rest => argument.isConfined allowed && argumentsAreConfined allowed rest

def Argument.isConfined (allowed : Label → Bool) : Argument → Bool
  | .literal value => value.isScalar
  | .reference target => target.isConfined allowed
  | .text _ => true

end

/-- Whether a callback gives out values within a property if it is given such values. -/
def Callback.StaysWithin (P : Value → Prop) (callback : Callback) : Prop :=
  ∀ arguments v, callback arguments = .ok v → (∀ a ∈ arguments, a.Within P) → v.Within P

/-- Whether all registered callbacks give out values within a property if they are given such
    values. -/
def Registry.StaysWithin (P : Value → Prop) (registry : Registry) : Prop :=
  ∀ name callback, registry.get? name = some callback → callback.StaysWithin P

section
variable {allowed : Label → Bool} {P : Value → Prop} {ctx : Context}

theorem within_text (s : String) : (Value.text s).Within P := within_of_isScalar rfl

theorem within_target
    (hnames : ∀ name v, allowed name → ctx.valueOf name = .ok v → v.Within P) {tag : Reference}
    {v : Value} (hname : allowed tag.name) (h : tag.target ctx = .ok v) : v.Within P := by
  obtain ⟨start, hstart, h⟩ := exists_of_bind_eq_ok h
  obtain ⟨found, hfound, h⟩ := exists_of_bind_eq_ok h
  have hstart : start.Within P := hnames _ _ hname (eq_ok_of_mapError_eq_ok hstart)
  -- every step stays within the value
  have hsteps (keys : List Label) {start : Value} (hstart : start.Within P)
      (hfound : keys.foldlM (fun v label => v.step label) start = .ok found) : found.Within P := by
    induction keys generalizing start with
    | nil =>
      cases hfound
      exact hstart
    | cons key rest ih =>
      rw [List.foldlM_cons] at hfound
      obtain ⟨next, hnext, hfound⟩ := exists_of_bind_eq_ok hfound
      exact ih (hstart.of_subset (Value.containers_step hnext)) hfound
  have hfound := hsteps tag.keys hstart hfound
  dsimp only at h
  split_ifs at h
  · exact nomatch h
  · cases h
    exact hfound

theorem within_runCallback (hcalls : ctx.callbacks.StaysWithin P) {name : Label}
    {callback : Callback} (hcallback : ctx.callback? name = .ok (some callback))
    {arguments : List Value} (harguments : ∀ a ∈ arguments, a.Within P) {v : Value}
    (h : runCallback callback arguments = .ok v) : v.Within P := by
  obtain ⟨key, -, hfound⟩ := exists_of_bind_eq_ok hcallback
  obtain ⟨text, -, hget⟩ := Option.bind_eq_some_iff.1 (Except.ok.inj hfound)
  exact hcalls text callback hget arguments v (eq_ok_of_mapError_eq_ok h) harguments

theorem within_unresolved {tag : Reference} {v : Value} (h : tag.unresolved = .ok v) :
    v.Within P := by
  unfold Reference.unresolved at h
  split at h
  · cases h
    exact within_text _
  · exact nomatch h

mutual

/-- A confined reference resolves to something within the property that everything below the
    allowed names is within. -/
theorem Reference.within_resolve
    (hnames : ∀ name v, allowed name → ctx.valueOf name = .ok v → v.Within P)
    (hcalls : ctx.callbacks.StaysWithin P) : ∀ {target : Reference} {v : Value},
      target.isConfined allowed → target.resolve ctx = .ok v → v.Within P
  | .mk source name keys calls, v, hconfined, h => by
    rw [Reference.isConfined, Bool.and_eq_true] at hconfined
    rw [Reference.resolve] at h
    obtain ⟨running, hrunning, h⟩ := exists_of_bind_eq_ok h
    have hname : allowed (Reference.mk source name keys []).name := hconfined.1
    exact within_resolveCalls hnames hcalls hconfined.2 (within_target hnames hname hrunning) h

theorem within_resolveCalls
    (hnames : ∀ name v, allowed name → ctx.valueOf name = .ok v → v.Within P)
    (hcalls : ctx.callbacks.StaysWithin P) :
    ∀ {calls : List Call} {tag : Reference} {running v : Value},
      callsAreConfined allowed calls → running.Within P →
        resolveCalls ctx tag running calls = .ok v → v.Within P
  | [], tag, running, v, _, hrunning, h => by
    cases h
    exact hrunning
  | .mk name none source :: rest, tag, running, v, hconfined, hrunning, h => by
    rw [callsAreConfined] at hconfined
    rw [resolveCalls] at h
    split at h
    · -- a call without arguments may be the listing of the value, which is text
      split at h
      · exact within_resolveCalls hnames hcalls hconfined (within_text _) h
      · exact nomatch h
    · obtain ⟨callback, hcallback, h⟩ := exists_of_bind_eq_ok h
      cases callback with
      | none => exact within_unresolved h
      | some callback =>
        obtain ⟨next, hnext, h⟩ := exists_of_bind_eq_ok h
        have hnext := within_runCallback hcalls hcallback (List.forall_mem_singleton.2 hrunning)
          hnext
        exact within_resolveCalls hnames hcalls hconfined hnext h
  | .mk name (some arguments) source :: rest, tag, running, v, hconfined, hrunning, h => by
    rw [callsAreConfined, Bool.and_eq_true] at hconfined
    rw [resolveCalls] at h
    obtain ⟨callback, hcallback, h⟩ := exists_of_bind_eq_ok h
    cases callback with
    | none => exact within_unresolved h
    | some callback =>
      obtain ⟨values, hvalues, h⟩ := exists_of_bind_eq_ok h
      obtain ⟨next, hnext, h⟩ := exists_of_bind_eq_ok h
      have hvalues := within_resolveArguments hnames hcalls hconfined.1 hrunning hvalues
      have hnext := within_runCallback hcalls hcallback hvalues hnext
      exact within_resolveCalls hnames hcalls hconfined.2 hnext h

theorem within_resolveArguments
    (hnames : ∀ name v, allowed name → ctx.valueOf name = .ok v → v.Within P)
    (hcalls : ctx.callbacks.StaysWithin P) :
    ∀ {arguments : List Argument} {running : Value} {values : List Value},
      argumentsAreConfined allowed arguments → running.Within P →
        resolveArguments ctx running arguments = .ok values → ∀ v ∈ values, v.Within P
  | [], running, values, _, _, h => by
    cases h
    exact fun v hv => nomatch hv
  | argument :: rest, running, values, hconfined, hrunning, h => by
    rw [argumentsAreConfined, Bool.and_eq_true] at hconfined
    rw [resolveArguments] at h
    obtain ⟨first, hfirst, h⟩ := exists_of_bind_eq_ok h
    obtain ⟨others, hothers, h⟩ := exists_of_bind_eq_ok h
    cases h
    exact List.forall_mem_cons.2
      ⟨argument.within_resolve hnames hcalls hconfined.1 hrunning hfirst,
        within_resolveArguments hnames hcalls hconfined.2 hrunning hothers⟩

theorem Argument.within_resolve
    (hnames : ∀ name v, allowed name → ctx.valueOf name = .ok v → v.Within P)
    (hcalls : ctx.callbacks.StaysWithin P) : ∀ {argument : Argument} {running v : Value},
      argument.isConfined allowed → running.Within P →
        argument.resolve ctx running = .ok v → v.Within P
  | .literal value, running, v, hconfined, _, h => by
    rw [Argument.resolve] at h
    cases h
    exact within_of_isScalar hconfined
  | .reference target, running, v, hconfined, _, h => by
    rw [Argument.isConfined] at hconfined
    rw [Argument.resolve] at h
    exact target.within_resolve hnames hcalls hconfined h
  | .text chunks, running, v, _, hrunning, h => by
    rw [Argument.resolve] at h
    -- the mark of the running value alone may pass the value itself, anything else is text
    split at h
    · cases h
      exact hrunning
    · obtain ⟨text, -, h⟩ := exists_of_bind_eq_ok h
      cases h
      exact within_text _

end

end

end BlockTemplate
