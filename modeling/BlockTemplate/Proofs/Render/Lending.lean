import BlockTemplate.Callback.Default
import BlockTemplate.Proofs.Reference.Confined
import BlockTemplate.Proofs.Render.Preservation
import BlockTemplate.Proofs.Value.Apart

/-!
# Lending host globals to variables

A loop over the host globals binds its variable to parts of them. Such a variable is lent what the
host owns. Rendering puts nothing that the host owns into any other variable, if the callbacks give
out no more than they are given.

## Key results

- `lendsNothing_default`: the default callbacks give out nothing
- `Reference.apart_resolve`: a reference that mentions nothing lent resolves to something apart
- `renderChildren_isApart`: rendering lends to the variables of loops only
-/

namespace BlockTemplate

/-! ## What can be lent -/

/-- Whether a name is that of the host globals, or of a variable that may be lent parts of them. -/
def isLent (lent : List Key) (name : Label) : Bool :=
  name.key?.any fun key => key == .text globalsName || lent.contains key

mutual

/-- Whether the value of a reference may have parts of the host globals. -/
def Reference.mayLend (lent : List Key) : Reference → Bool
  | .mk _ name _ calls => isLent lent name || callsMayLend lent calls

def callsMayLend (lent : List Key) : List Call → Bool
  | [] => false
  | .mk _ none _ :: rest => callsMayLend lent rest
  | .mk _ (some arguments) _ :: rest => argumentsMayLend lent arguments || callsMayLend lent rest

def argumentsMayLend (lent : List Key) : List Argument → Bool
  | [] => false
  | argument :: rest => argument.mayLend lent || argumentsMayLend lent rest

def Argument.mayLend (lent : List Key) : Argument → Bool
  | .literal value => !value.isScalar
  | .reference target => target.mayLend lent
  | .text _ => false

end

mutual

/-- Whether the loops in a node lend parts of the host globals to none but the variables given. -/
def Node.lendsWithin (lent : List Key) : Node → Bool
  | .data _ => true
  | .block _ children => childrenLendWithin lent children
  | .loop header children =>
    (!header.collection.mayLend lent || header.valueVar.key?.all lent.contains)
      && childrenLendWithin lent children
  | .conditional _ ifChildren elseChildren =>
    childrenLendWithin lent ifChildren && childrenLendWithin lent elseChildren

def childrenLendWithin (lent : List Key) : List (Key × Node) → Bool
  | [] => true
  | (_, node) :: rest => node.lendsWithin lent && childrenLendWithin lent rest

end

/-- Whether a callback gives out nothing owned that it is not given. -/
def Callback.LendsNothing (owned : List Origin) (callback : Callback) : Prop :=
  ∀ arguments v, callback arguments = .ok v → (∀ a ∈ arguments, a.ApartFrom owned) →
    v.ApartFrom owned

/-- Whether no registered callback gives out anything owned that it is not given. -/
def Registry.LendsNothing (owned : List Origin) (registry : Registry) : Prop :=
  ∀ name callback, registry.get? name = some callback → callback.LendsNothing owned

/-- Whether variables are apart from what is owned, unless they may be lent parts of it. -/
def VarsApart (lent : List Key) (owned : List Origin) (vars : List (Key × Value)) : Prop :=
  ∀ entry ∈ vars, lent.contains entry.1 = false → entry.2.ApartFrom owned

section
variable {lent : List Key} {owned : List Origin}

/-! ## Callbacks -/

theorem isScalar_of_ofFunction {f : Value → Value} (h : ∀ v, (f v).isScalar)
    (arguments : List Value) (v : Value) (hv : Callback.ofFunction f arguments = .ok v) :
    v.isScalar := by
  unfold Callback.ofFunction at hv
  split at hv
  · cases hv
    exact h _
  · exact nomatch hv

theorem isScalar_of_trim (arguments : List Value) (v : Value)
    (hv : Callback.trim arguments = .ok v) : v.isScalar := by
  unfold Callback.trim at hv
  split at hv
  · cases hv
    rfl
  · cases hv
    rfl
  · cases hv
    rfl
  · exact nomatch hv

theorem isScalar_joined (glue pieces : Value) : (Callback.joined glue pieces).isScalar := by
  unfold Callback.joined
  split
  · rfl
  · rfl

theorem isScalar_of_implode (arguments : List Value) (v : Value)
    (hv : Callback.implode arguments = .ok v) : v.isScalar := by
  unfold Callback.implode at hv
  split at hv
  · cases hv
    exact isScalar_joined ..
  · cases hv
    exact isScalar_joined ..
  · cases hv
    split
    · exact isScalar_joined ..
    · exact isScalar_joined ..
  · exact nomatch hv

theorem isScalar_default {name : String} {callback : Callback}
    (h : Registry.default.get? name = some callback) (arguments : List Value) (v : Value) :
    callback arguments = .ok v → v.isScalar := by
  obtain ⟨entry, hentry, rfl, -⟩ := mem_of_valueOf? h
  simp only [Registry.default, defaultCallbacks, List.mem_cons, List.not_mem_nil, or_false]
    at hentry
  rcases hentry with rfl | rfl | rfl | rfl | rfl | rfl | rfl | rfl | rfl
  · exact isScalar_of_ofFunction (fun _ => rfl) arguments v
  · exact isScalar_of_ofFunction (fun _ => rfl) arguments v
  · exact isScalar_of_ofFunction (fun _ => rfl) arguments v
  · exact isScalar_of_ofFunction (fun _ => rfl) arguments v
  · exact isScalar_of_trim arguments v
  · exact isScalar_of_ofFunction (fun _ => rfl) arguments v
  · exact isScalar_of_implode arguments v
  · exact isScalar_of_ofFunction (fun _ => rfl) arguments v
  · exact isScalar_of_ofFunction (fun _ => rfl) arguments v

/-- The default callbacks give out nothing, for they give scalars only. -/
theorem lendsNothing_default (owned : List Origin) : Registry.default.LendsNothing owned :=
  fun _ _ hget arguments v hv _ => apartFrom_of_isScalar (isScalar_default hget arguments v hv)

theorem staysWithin_default (P : Value → Prop) : Registry.default.StaysWithin P :=
  fun _ _ hget arguments v hv _ => within_of_isScalar (isScalar_default hget arguments v hv)

/-! ## References -/

namespace VarsApart

variable {vars : List (Key × Value)}

theorem valueOf (h : VarsApart lent owned vars) {key : Key} (hkey : lent.contains key = false) :
    ∀ v ∈ valueOf? key vars, v.ApartFrom owned := by
  intro v hv
  obtain ⟨entry, hentry, rfl, hbeq⟩ := mem_of_valueOf? hv
  exact h entry hentry ((Key.contains_congr hbeq).trans hkey)

theorem upsert (h : VarsApart lent owned vars) {key : Key} {v : Value}
    (hv : lent.contains key = false → v.ApartFrom owned) :
    VarsApart lent owned (upsert key v vars) :=
  forall_mem_upsert_of_congr
    (P := fun key (v : Value) => lent.contains key = false → v.ApartFrom owned)
    (fun heq hv hother => hv ((Key.contains_congr heq).symm.trans hother)) hv h

theorem share (h : VarsApart lent owned vars) (origin : Origin) {contents : List (Key × Value)}
    (hcontents : ∀ o ∈ entriesOrigins contents, o ∉ owned) :
    VarsApart lent owned (shareEntries origin contents vars) := by
  intro entry hentry hkey o ho
  obtain ⟨old, hold, rfl⟩ := mem_shareEntries hentry
  obtain ho | ho := old.2.mem_origins_share ho
  · exact h old hold hkey o ho
  · exact hcontents o ho

end VarsApart

section
variable {ctx : Context} (hvars : VarsApart lent owned ctx.vars)
include hvars

theorem apart_valueOf {name : Label} {v : Value} (hname : isLent lent name = false)
    (h : ctx.valueOf name = .ok v) : v.ApartFrom owned := by
  obtain ⟨key, hkey, h⟩ := exists_of_bind_eq_ok h
  have hsome : name.key? = some key := by
    unfold Json.toKey at hkey
    split at hkey
    · rename_i heq
      cases hkey
      exact heq
    · exact nomatch hkey
  rw [isLent, hsome, Option.any_some, Bool.or_eq_false_iff] at hname
  rw [hname.1] at h
  cases h
  cases hvalue : valueOf? key ctx.vars with
  | none => exact apartFrom_null
  | some value => exact hvars.valueOf hname.2 value hvalue

end

/-- Being apart is a property of each container. -/
theorem apartFrom_iff_within {v : Value} :
    v.ApartFrom owned ↔ v.Within fun c => ∀ o ∈ c.mappingOrigin?, o ∉ owned := by
  simp only [Value.ApartFrom, Value.Within, Value.origins_eq_filterMap, List.mem_filterMap,
    Option.mem_def]
  constructor
  · exact fun h c hc o ho => h o ⟨c, hc, ho⟩
  · rintro h o ⟨c, hc, ho⟩
    exact h c hc o ho

theorem staysWithin_of_lendsNothing {registry : Registry} (h : registry.LendsNothing owned) :
    registry.StaysWithin fun c => ∀ o ∈ c.mappingOrigin?, o ∉ owned := by
  intro name callback hget arguments v hv harguments
  have hapart : ∀ a ∈ arguments, a.ApartFrom owned :=
    fun a ha => apartFrom_iff_within.2 (harguments a ha)
  exact apartFrom_iff_within.1 (h name callback hget arguments v hv hapart)

mutual

/-- A reference that mentions nothing lent is confined to the other names. -/
theorem Reference.isConfined_of_mayLend : ∀ {target : Reference}, target.mayLend lent = false →
    target.isConfined fun name => !isLent lent name
  | .mk source name keys calls, h => by
    rw [Reference.mayLend, Bool.or_eq_false_iff] at h
    rw [Reference.isConfined, h.1, callsAreConfined_of_mayLend h.2]
    rfl

theorem callsAreConfined_of_mayLend : ∀ {calls : List Call}, callsMayLend lent calls = false →
    callsAreConfined (fun name => !isLent lent name) calls
  | [], _ => rfl
  | .mk _ none _ :: _, h => by
    rw [callsMayLend] at h
    rw [callsAreConfined, callsAreConfined_of_mayLend h]
  | .mk _ (some _) _ :: _, h => by
    rw [callsMayLend, Bool.or_eq_false_iff] at h
    rw [callsAreConfined, argumentsAreConfined_of_mayLend h.1, callsAreConfined_of_mayLend h.2]
    rfl

theorem argumentsAreConfined_of_mayLend : ∀ {arguments : List Argument},
    argumentsMayLend lent arguments = false →
      argumentsAreConfined (fun name => !isLent lent name) arguments
  | [], _ => rfl
  | _ :: _, h => by
    rw [argumentsMayLend, Bool.or_eq_false_iff] at h
    rw [argumentsAreConfined, Argument.isConfined_of_mayLend h.1,
      argumentsAreConfined_of_mayLend h.2]
    rfl

theorem Argument.isConfined_of_mayLend : ∀ {argument : Argument}, argument.mayLend lent = false →
    argument.isConfined fun name => !isLent lent name
  | .literal value, h => by
    rw [Argument.mayLend, Bool.not_eq_false'] at h
    rw [Argument.isConfined, h]
  | .reference target, h => by
    rw [Argument.mayLend] at h
    rw [Argument.isConfined, target.isConfined_of_mayLend h]
  | .text _, _ => rfl

end

/-- A reference that mentions nothing lent resolves to something apart. -/
theorem Reference.apart_resolve {ctx : Context} (hvars : VarsApart lent owned ctx.vars)
    (hcalls : ctx.callbacks.LendsNothing owned) {target : Reference} {v : Value}
    (hlend : target.mayLend lent = false) (h : target.resolve ctx = .ok v) :
    v.ApartFrom owned := by
  refine apartFrom_iff_within.2 (target.within_resolve ?_ (staysWithin_of_lendsNothing hcalls)
    (target.isConfined_of_mayLend hlend) h)
  intro name value hname hvalue
  rw [Bool.not_eq_true'] at hname
  exact apartFrom_iff_within.1 (apart_valueOf hvars hname hvalue)

/-! ## Rendering -/

open Rendering

/-- Whether the variables of a state are apart from what is owned. -/
def RenderState.IsApart (lent : List Key) (owned : List Origin) (s : RenderState) : Prop :=
  VarsApart lent owned s.vars

/-- A loop lends what the host owns only to a variable that may be lent it. -/
theorem apartFrom_of_loopEntries {header : LoopHeader}
    (h : !header.collection.mayLend lent || header.valueVar.key?.all lent.contains) {v : Value}
    (hv : header.collection.mayLend lent = false → v.ApartFrom owned)
    {entries : List (Key × Value)} (hentries : v.loopEntries? = some entries) :
    ∀ entry ∈ entries, ∀ key ∈ header.valueVar.key?, lent.contains key = false →
      entry.2.ApartFrom owned := by
  intro entry hentry key hkey hlent
  cases hmay : header.collection.mayLend lent with
  | false => exact (hv hmay).loopEntries hentries entry hentry
  | true =>
    rw [hmay, Option.mem_def.1 hkey, Option.all_some, hlent] at h
    exact nomatch h

theorem preserves_isApart {host : Host} (hcalls : host.callbacks.LendsNothing owned)
    {header : LoopHeader}
    (h : !header.collection.mayLend lent || header.valueVar.key?.all lent.contains) :
    header.Preserves host (RenderState.IsApart lent owned) := by
  intro s hs collection hcollection entries hentries entry hentry
  have hvars : VarsApart lent owned (s.context host).vars := hs
  have hvalue := apartFrom_of_loopEntries h
    (fun hmay => header.collection.apart_resolve hvars hcalls hmay hcollection) hentries entry
      hentry
  have hkey : entry.1.toValue.isScalar := by cases entry.1 <;> rfl
  refine preserves_bindEntry (fun key hname s hs => hs.upsert (hvalue key hname)) ?_
  exact fun label _ key _ s hs => hs.upsert fun _ => apartFrom_of_isScalar hkey

mutual

theorem Node.lends_of_mem_loops {node : Node} (h : node.lendsWithin lent) :
    ∀ header ∈ node.loops,
      !header.collection.mayLend lent || header.valueVar.key?.all lent.contains := by
  match node with
  | .data _ => exact fun _ hheader => nomatch hheader
  | .block _ _ => exact fun _ hheader => nomatch hheader
  | .loop header children =>
    rw [Node.lendsWithin, Bool.and_eq_true] at h
    rw [Node.loops, List.forall_mem_cons]
    exact ⟨h.1, lends_of_mem_childrenLoops h.2⟩
  | .conditional _ ifChildren elseChildren =>
    rw [Node.lendsWithin, Bool.and_eq_true] at h
    rw [Node.loops, List.forall_mem_append]
    exact ⟨lends_of_mem_childrenLoops h.1, lends_of_mem_childrenLoops h.2⟩

theorem lends_of_mem_childrenLoops {children : List (Key × Node)}
    (h : childrenLendWithin lent children) :
    ∀ header ∈ childrenLoops children,
      !header.collection.mayLend lent || header.valueVar.key?.all lent.contains := by
  match children with
  | [] => exact fun _ hheader => nomatch hheader
  | (_, node) :: rest =>
    rw [childrenLendWithin, Bool.and_eq_true] at h
    rw [childrenLoops, List.forall_mem_append]
    exact ⟨node.lends_of_mem_loops h.1, lends_of_mem_childrenLoops h.2⟩

end

/-- Rendering a node lends to the variables of its loops only. -/
theorem Node.render_isApart {host : Host} (hcalls : host.callbacks.LendsNothing owned)
    (path : BlockPath) (node : Node) (h : node.lendsWithin lent) :
    (node.render host path).Preserves (RenderState.IsApart lent owned) fun _ => True :=
  Node.render_preserves
    (fun header hheader => preserves_isApart hcalls (node.lends_of_mem_loops h header hheader))
    fun _ _ _ hs => hs

/-- Rendering children lends to the variables of their loops only. -/
theorem renderChildren_isApart {host : Host} (hcalls : host.callbacks.LendsNothing owned)
    (path : BlockPath) (children : List (Key × Node)) (h : childrenLendWithin lent children) :
    (renderChildren host path children).Preserves (RenderState.IsApart lent owned)
      fun _ => True :=
  renderChildren_preserves
    (fun header hheader => preserves_isApart hcalls (lends_of_mem_childrenLoops h header hheader))
    fun _ _ _ hs => hs

end

end BlockTemplate
