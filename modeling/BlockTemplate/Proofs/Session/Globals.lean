import BlockTemplate.Proofs.Render.Lending
import BlockTemplate.Proofs.Session.Operation
import BlockTemplate.Proofs.Template.Descent
import BlockTemplate.Template.Compile
import Mathlib

/-!
# Host globals

The host globals are one mapping that is not written to. The mappings within it are as writable as
any other: a loop binds its variable to the host's own mapping, and a dotted assignment to the
variable then changes that. The globals stay as they are if no dotted assignment goes into a
variable that may be lent parts of them.

## Key results

- `Session.leavesGlobals_perform`: an operation leaves the globals as they are
- `globals_performAll`: so do all operations of a host that respects what is lent
- `globals_performAll_ne_of_lent`: without that respect the globals change
-/

namespace BlockTemplate

/-- Whether a dotted name is a path into a variable that may be lent parts of the globals. -/
def entersLent (lent : List Key) (name : String) : Bool :=
  match (splitAtChar '.' name.toList).map String.ofList with
  | first :: _ :: _ => lent.contains (.text first)
  | _ => false

/-- Whether an operation assigns nothing that the host owns, and nothing into what is lent. -/
def Operation.Respects (lent : List Key) (owned : List Origin) : Operation → Prop
  | .assign name v => v.ApartFrom owned ∧ entersLent lent name = false
  | .assignAll front entries => ∀ entry ∈ entries,
    entry.2.ApartFrom owned ∧ entersLent lent (front ++ entry.1.plain) = false
  | _ => True

/-- Whether the loops at a place lend parts of the globals to none but the variables given. -/
def Place.LendsWithin (lent : List Key) : Place → Prop
  | .node n => n.lendsWithin lent
  | .level nodes => childrenLendWithin lent nodes

/-! ## Places -/

section
variable {lent : List Key}

theorem childrenLendWithin_iff {nodes : List (Key × Node)} :
    childrenLendWithin lent nodes ↔ ∀ entry ∈ nodes, entry.2.lendsWithin lent := by
  induction nodes with
  | nil => exact ⟨fun _ _ hentry => absurd hentry List.not_mem_nil, fun _ => rfl⟩
  | cons entry rest ih => rw [childrenLendWithin, Bool.and_eq_true, ih, List.forall_mem_cons]

/-- What lies below a node lends within the same variables. -/
theorem passesDown_lendsWithin (lent : List Key) :
    PassesDown fun node => node.lendsWithin lent where
  block h := childrenLendWithin_iff.1 h
  loop h := childrenLendWithin_iff.1 (Bool.and_eq_true_iff.1 h).2
  conditional h :=
    (Bool.and_eq_true_iff.1 h).imp childrenLendWithin_iff.1 childrenLendWithin_iff.1

end

namespace Session

variable {lent : List Key} {owned : List Origin} {s : Session}

/-- Whether a session is apart from the globals: what the host owns there is no mapping that an
    assignment has created, is lent to none but the variables given, and is given out neither by the
    callbacks nor by any other variable. -/
structure IsApart (lent : List Key) (owned : List Origin) (s : Session) : Prop where
  globals : ∀ o ∈ entriesOrigins s.config.globals, o ∈ owned
  numbered : ∀ n, Origin.assigned n ∉ owned
  callbacks : s.callbacks.LendsNothing owned
  blocks : childrenLendWithin lent s.compiled.blocks
  vars : VarsApart lent owned s.state.vars

/-- Only the variables, the globals and the template matter. -/
theorem IsApart.of_eq (h : s.IsApart lent owned) {s' : Session}
    (hglobals : s'.config.globals = s.config.globals) (hcallbacks : s'.callbacks = s.callbacks)
    (hcompiled : s'.compiled = s.compiled) (hvars : VarsApart lent owned s'.state.vars) :
    s'.IsApart lent owned :=
  ⟨hglobals ▸ h.globals, h.numbered, hcallbacks ▸ h.callbacks, hcompiled ▸ h.blocks, hvars⟩

/-- Whether a session has the globals of another one, and is apart from them. -/
structure LeavesGlobals (lent : List Key) (owned : List Origin) (s s' : Session) : Prop where
  globals_eq : s'.config.globals = s.config.globals
  isApart : s'.IsApart lent owned

theorem LeavesGlobals.refl (h : s.IsApart lent owned) : s.LeavesGlobals lent owned s := ⟨rfl, h⟩

theorem LeavesGlobals.trans {s' s'' : Session} (h : s.LeavesGlobals lent owned s')
    (h' : s'.LeavesGlobals lent owned s'') : s.LeavesGlobals lent owned s'' :=
  ⟨h'.globals_eq.trans h.globals_eq, h'.isApart⟩

/-! ## Assigning -/

/-- What an assignment leaves in a variable that may not be lent anything is apart. -/
theorem apart_of_comesFrom {v : Value} (hv : v.ApartFrom owned)
    (hnumbered : ∀ n, Origin.assigned n ∉ owned) {held : Option Value}
    (hheld : ∀ old ∈ held, old.ApartFrom owned) {o : Origin} (ho : ComesFrom v held o) :
    o ∉ owned := by
  obtain ho | ⟨n, rfl⟩ | ⟨old, hold, ho⟩ := ho
  · exact hv o ho
  · exact hnumbered n
  · exact hheld old hold o ho

/-- An assignment that does not go into what is lent leaves the globals as they are. -/
theorem leavesGlobals_assignPath (h : s.IsApart lent owned) {name : String} {keys : List String}
    {v : Value} (hv : v.ApartFrom owned) (hname : keys ≠ [] → lent.contains (.text name) = false) :
    s.LeavesGlobals lent owned (s.assignPath name keys v) := by
  obtain ⟨w, hset, hw⟩ := exists_setPathIn s.numbered v name keys s.state.vars
  have hvars : VarsApart lent owned (setPathIn s.numbered v name keys s.state.vars) := by
    rw [hset]
    refine h.vars.upsert fun hkey o ho => ?_
    obtain ho | ⟨-, ho⟩ := hw o ho
    · exact hv o ho
    · exact apart_of_comesFrom hv h.numbered (h.vars.valueOf hkey) ho
  rw [assignPath]
  split
  · rename_i origin contents hchanged
    -- the mapping that changes is held by a variable that is lent nothing
    obtain ⟨hkeys, old, hold, horigin, hcontents⟩ := origins_of_changedMapping? hchanged
    have hheld := h.vars.valueOf (hname hkeys)
    have horigin : origin ∉ owned := hheld old hold origin horigin
    have hcontents (o : Origin) (ho : o ∈ entriesOrigins contents) : o ∉ owned :=
      apart_of_comesFrom hv h.numbered (by rw [← hold]; exact hheld) (hcontents o ho)
    have hglobals : shareEntries origin contents s.config.globals = s.config.globals :=
      shareEntries_eq_self contents fun hmem => horigin (h.globals origin hmem)
    exact ⟨hglobals, h.of_eq hglobals rfl rfl (hvars.share origin hcontents)⟩
  · exact ⟨rfl, h.of_eq rfl rfl rfl hvars⟩

theorem leavesGlobals_assign (h : s.IsApart lent owned) {name : String} {v : Value}
    (hv : v.ApartFrom owned) (hname : entersLent lent name = false) :
    s.LeavesGlobals lent owned (s.assign name v) := by
  rw [assign]
  split
  · rename_i first keys hsplit
    refine leavesGlobals_assignPath h hv fun hkeys => ?_
    obtain ⟨next, rest, rfl⟩ := List.exists_cons_of_ne_nil hkeys
    rw [entersLent, hsplit] at hname
    exact hname
  · exact .refl h

theorem leavesGlobals_assignAll (h : s.IsApart lent owned) {front : String}
    {entries : List (Key × Value)}
    (hentries : (Operation.assignAll front entries).Respects lent owned) :
    s.LeavesGlobals lent owned (s.assignAll front entries) := by
  induction entries generalizing s with
  | nil => exact .refl h
  | cons entry rest ih =>
    obtain ⟨hv, hname⟩ := hentries entry List.mem_cons_self
    have hassign := leavesGlobals_assign h hv hname
    have hrest := ih hassign.isApart fun e he => hentries e (List.mem_cons_of_mem _ he)
    exact hassign.trans hrest

/-! ## Rendering -/

theorem lendsWithin_of_locate (h : s.IsApart lent owned) {block : String}
    {found : BlockPath × Place} (hfound : s.locate block = .ok (some found)) :
    found.2.LendsWithin lent := by
  have hplace := CompiledTemplate.satisfies_locate (passesDown_lendsWithin lent)
    (childrenLendWithin_iff.1 h.blocks) (eq_ok_of_mapError_eq_ok hfound)
  match found.2, hplace with
  | .node n, hplace => exact hplace
  | .level nodes, hplace => exact childrenLendWithin_iff.2 hplace

theorem leavesGlobals_run {α : Type} {P : α → Prop} (h : s.IsApart lent owned)
    {rendering : Rendering α}
    (hrendering : rendering.Preserves (RenderState.IsApart lent owned) P) :
    s.LeavesGlobals lent owned (s.run rendering).2 :=
  ⟨rfl, h.of_eq rfl rfl rfl (hrendering s.state h.vars).1⟩

theorem leavesGlobals_recorded (h : s.IsApart lent owned) (block : String) :
    s.LeavesGlobals lent owned (s.recorded block) := by
  rw [recorded]
  split
  · exact ⟨rfl, h.of_eq rfl rfl rfl h.vars⟩
  · exact .refl h

theorem leavesGlobals_parse (h : s.IsApart lent owned) (block : String) :
    s.LeavesGlobals lent owned (s.parse block).2 := by
  rw [parse]
  split
  · exact .refl h
  · exact leavesGlobals_recorded h block
  · rename_i path _ children hlocate
    have hchildren : childrenLendWithin lent children := lendsWithin_of_locate h hlocate
    have hparse : (parseBlock s.host path children).Preserves (RenderState.IsApart lent owned)
        fun _ => True :=
      (renderChildren_isApart h.callbacks path children hchildren).bind
        fun _ _ s hs => ⟨hs, fun _ _ => trivial⟩
    -- the children lend out nothing but what they may, whether rendering them succeeds or not
    have hrun := leavesGlobals_run h hparse
    split
    · rename_i heq
      rw [heq] at hrun
      exact hrun.trans (leavesGlobals_recorded hrun.isApart block)
    · rename_i heq
      rw [heq] at hrun
      exact hrun
  · exact .refl h

theorem leavesGlobals_text (h : s.IsApart lent owned) (block : String) :
    s.LeavesGlobals lent owned (s.text block).2 := by
  rw [text]
  split
  · exact .refl h
  · rename_i path node hlocate
    have hnode : node.lendsWithin lent := lendsWithin_of_locate h hlocate
    exact leavesGlobals_run h (node.render_isApart h.callbacks path hnode)
  · exact .refl h

theorem leavesGlobals_of_reset (h : s.IsApart lent owned) {block : String} {s' : Session}
    (hreset : s.reset block = .ok s') : s.LeavesGlobals lent owned s' := by
  obtain ⟨place, -, hreset⟩ := exists_of_bind_eq_ok hreset
  split at hreset
  · cases hreset
    exact .refl h
  · cases hreset
    exact ⟨rfl, h.of_eq rfl rfl rfl h.vars⟩
  · exact nomatch hreset

/-! ## All operations -/

/-- An operation that respects what is lent leaves the globals as they are, and the session
    apart. -/
theorem leavesGlobals_perform (h : s.IsApart lent owned) {operation : Operation}
    (hop : operation.Respects lent owned) :
    s.LeavesGlobals lent owned (s.perform operation).2 := by
  cases operation with
  | assign name v => exact leavesGlobals_assign h hop.1 hop.2
  | assignAll front entries => exact leavesGlobals_assignAll h hop
  | parse block => exact leavesGlobals_parse h block
  | text block => exact leavesGlobals_text h block
  | out block =>
    rw [perform, out]
    split
    · exact .refl h
    · exact leavesGlobals_text h block
  | reset block =>
    rw [perform]
    split
    · rename_i heq
      exact leavesGlobals_of_reset h heq
    · exact .refl h

/-- A session starts apart, if the template lends to the given variables only and the callbacks give
    nothing out. -/
theorem isApart_start (fileName sourceHash : String) (config : Config) {callbacks : Registry}
    {t : CompiledTemplate} (hnumbered : ∀ n, Origin.assigned n ∉ entriesOrigins config.globals)
    (hcallbacks : callbacks.LendsNothing (entriesOrigins config.globals))
    (hblocks : childrenLendWithin lent t.blocks) :
    (start fileName config callbacks sourceHash t).IsApart lent (entriesOrigins config.globals) :=
  ⟨fun _ ho => ho, hnumbered, hcallbacks, hblocks, List.forall_mem_nil _⟩

theorem leavesGlobals_performAll {operations : List Operation} (h : s.IsApart lent owned)
    (hops : ∀ operation ∈ operations, operation.Respects lent owned) :
    s.LeavesGlobals lent owned (s.performAll operations).2 := by
  induction operations generalizing s with
  | nil => exact .refl h
  | cons operation rest ih =>
    have hperform := leavesGlobals_perform h (hops operation List.mem_cons_self)
    have hrest := ih hperform.isApart fun o ho => hops o (List.mem_cons_of_mem _ ho)
    exact hperform.trans hrest

/-- The context of the tags that are resolved in a session. -/
def context (s : Session) : Context := s.state.context s.host

end Session

/-- What the tag of the host globals names depends on nothing but the globals. -/
theorem target_of_globals {ctx ctx' : Context} (h : ctx'.globals = ctx.globals) {tag : Reference}
    (hname : tag.name.key? = some (.text globalsName)) : tag.target ctx' = tag.target ctx := by
  have hvalue (ctx : Context) : ctx.valueOf tag.name = .ok ctx.globals := by
    rw [Context.valueOf, Json.toKey, hname]
    rfl
  rw [Reference.target, Reference.target, hvalue, hvalue, h]

/-- The host globals stay as they are, at any depth, and so does what their tags name: whatever is
    assigned, parsed, handed out and forgotten, in any order, unless a dotted assignment goes into a
    variable that may be lent parts of the globals. -/
theorem globals_performAll {lent : List Key} {s : Session} {operations : List Operation}
    (h : s.IsApart lent (entriesOrigins s.config.globals))
    (hops : ∀ operation ∈ operations, operation.Respects lent (entriesOrigins s.config.globals)) :
    (s.performAll operations).2.config.globals = s.config.globals
      ∧ ∀ tag : Reference, tag.name.key? = some (.text globalsName) →
        tag.target (s.performAll operations).2.context = tag.target s.context := by
  have hglobals := (Session.leavesGlobals_performAll h hops).globals_eq
  refine ⟨hglobals, fun tag htag => target_of_globals ?_ htag⟩
  rw [Session.context, RenderState.context, Session.host, hglobals]
  rfl

/-! ## A variable that is lent a mapping -/

/-- A template whose loop lends the mappings of the globals to a variable. -/
def lendingSource : List Char :=
  "<!-- BEGIN: MAIN --><!-- FOR {V} IN {PHP} -->.<!-- ENDFOR -->".toList
    ++ "{PHP.cfg.a}<!-- END: MAIN -->".toList

/-- Host globals with one mapping in them. -/
def globalsWith (n : Int) : List (Key × Value) :=
  [(.text "cfg", .mapping (.host 0) [(.text "a", .int n)])]

/-- A configuration with such globals. -/
def lendingConfig : Config := { globals := globalsWith 1 }

/-- A session of a template with such globals. -/
def lendingSession (t : CompiledTemplate) : Session :=
  .start "page" lendingConfig .default "0" t

/-- The variable of the loop is assigned to as a whole, and another one in parts. -/
def respectfulOperations : List Operation :=
  [.parse "MAIN", .assign "V" (.int 2), .assign "W.a" (.int 2), .assign "W.a" (.int 3),
    .text "MAIN"]

set_option maxRecDepth 4000 in
/-- Assignments beside the lent mapping leave the globals as they are. -/
theorem globals_performAll_of_whole :
    ∃ t, compileTemplate lendingSource = .ok t
      ∧ ((lendingSession t).performAll respectfulOperations).2.config.globals = globalsWith 1 := by
  have hcompiled : (compileTemplate lendingSource).map
      (fun t => childrenLendWithin [.text "V"] t.blocks) = .ok true := by cbv
  obtain ⟨t, ht, hblocks⟩ := exists_of_map_eq_ok hcompiled
  have hnumbered (n : Nat) : Origin.assigned n ∉ entriesOrigins (globalsWith 1) := by
    simp [globalsWith, entriesOrigins, Value.origins]
  have hapart : (lendingSession t).IsApart [.text "V"] (entriesOrigins (globalsWith 1)) :=
    Session.isApart_start "page" "0" lendingConfig hnumbered (lendsNothing_default _) hblocks
  refine ⟨t, ht, (globals_performAll hapart ?_).1⟩
  have hscalar (n : Int) : (Value.int n).ApartFrom (entriesOrigins (globalsWith 1)) :=
    apartFrom_of_isScalar rfl
  intro operation hop
  simp only [respectfulOperations, List.mem_cons, List.not_mem_nil, or_false] at hop
  rcases hop with rfl | rfl | rfl | rfl | rfl
  · exact trivial
  · exact ⟨hscalar 2, by cbv⟩
  · exact ⟨hscalar 2, by cbv⟩
  · exact ⟨hscalar 3, by cbv⟩
  · exact trivial

set_option maxRecDepth 4000 in
/-- A dotted assignment to the variable of the loop changes the host's own mapping. -/
theorem globals_performAll_ne_of_lent :
    ∃ t, compileTemplate lendingSource = .ok t
      ∧ ((lendingSession t).performAll
          [.parse "MAIN", .text "MAIN", .assign "V.a" (.int 2), .parse "MAIN", .text "MAIN"]).1
        = [none, some ".1", none, none, some ".2"].map .ok
      ∧ ((lendingSession t).performAll [.parse "MAIN", .assign "V.a" (.int 2)]).2.config.globals
        = globalsWith 2 := by
  have hcompiled : (compileTemplate lendingSource).map
      (fun t => ((((lendingSession t).performAll
          [.parse "MAIN", .text "MAIN", .assign "V.a" (.int 2), .parse "MAIN", .text "MAIN"]).1,
        ((lendingSession t).performAll [.parse "MAIN", .assign "V.a" (.int 2)]).2.config.globals)))
      = .ok ([none, some ".1", none, none, some ".2"].map .ok, globalsWith 2) := by cbv
  obtain ⟨t, ht, hrun⟩ := exists_of_map_eq_ok hcompiled
  exact ⟨t, ht, congrArg Prod.fst hrun, congrArg Prod.snd hrun⟩

end BlockTemplate
