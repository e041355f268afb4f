import BlockTemplate.Proofs.Session.Acyclic
import Mathlib

/-!
# Assigned variables

A variable has the value that has been assigned to it, also under a dotted name. The assignment
changes one mapping, and every occurrence of that mapping is brought up to date. Where no mapping
lies within itself the mappings on the way to the changed one are others, so that they keep their
keys and the way leads to the value still.

## Key results

- `getPath_shareEntries_setPathIn`: what is written is read after sharing, too
- `Session.get_assign`, `get_assign_of_performAll`: a variable that has been assigned
- `assigned_is_read_back`: the laws of values and of sessions
-/

namespace BlockTemplate

/-! ## Sharing -/

section
variable {o origin : Origin} {entries inner contents : List (Key × Value)} {key : String}
  {fresh : Nat} {v w : Value}

theorem Value.IsAcyclic.not_mem (h : (Value.mapping o entries).IsAcyclic) (ho : o.isShared) :
    o ∉ entriesOrigins entries :=
  h (.mapping o entries) List.mem_cons_self ho

/-- The entries of an acyclic mapping are those of an acyclic mapping that is not shared. -/
theorem Value.IsAcyclic.temporary (h : (Value.mapping o entries).IsAcyclic) :
    (Value.mapping .temporary entries).IsAcyclic := by
  intro c hc
  rcases List.mem_cons.1 hc with rfl | hc
  · exact fun hshared => nomatch hshared
  · exact h c (List.mem_cons_of_mem _ hc)

theorem shareEntries_eq_mapValues (origin : Origin) (contents entries : List (Key × Value)) :
    shareEntries origin contents entries = mapValues (Value.share origin contents) entries := by
  induction entries with
  | nil => rfl
  | cons entry rest ih =>
    rw [shareEntries, ih]
    rfl

theorem valueOf?_shareEntries_upsert (origin : Origin) (contents : List (Key × Value)) :
    valueOf? (.text key) (shareEntries origin contents (upsert (.text key) w entries))
      = some (w.share origin contents) := by
  rw [shareEntries_eq_mapValues, valueOf?_mapValues, valueOf?_upsert_self]
  rfl

/-- What an assignment writes is read at its path when the mapping that it changes has been brought
    up to date everywhere. -/
theorem getPath_shareEntries_setPathIn {keys : List String}
    (hacyclic : (Value.mapping .temporary entries).IsAcyclic)
    (hchanged : changedMapping? fresh v key keys entries = some (origin, contents)) (o : Origin) :
    (Value.mapping o (shareEntries origin contents (setPathIn fresh v key keys entries))).getPath
      (key :: keys) = .ok v := by
  -- the changed mapping is the last shared one on the way: either one further down, or this one
  induction keys generalizing fresh key entries o with
  | nil => cases hchanged
  | cons next keys ih =>
    rw [changedMapping?] at hchanged
    cases hwritable : (valueOf? (Key.text key) entries).bind Value.writableEntries? with
    | none =>
      rw [hwritable] at hchanged
      cases hchanged
    | some way =>
      obtain ⟨o', inner⟩ := way
      have hheld : (Value.mapping o' inner).IsAcyclic :=
        hacyclic.of_subset (containers_of_valueOf? (valueOf?_of_writable hwritable))
      rw [setPathIn_cons, getPath_of_text (valueOf?_shareEntries_upsert origin contents),
        wayAt_of_writable hwritable]
      rw [hwritable] at hchanged
      cases hinner : changedMapping? (fresh + 1) v next keys inner with
      | some changed =>
        -- the changed mapping lies further down, so that it is not the one here
        simp only [hinner] at hchanged
        cases hchanged
        have hshared : origin.isShared := isShared_of_changedMapping? hinner
        obtain ⟨-, old, hold, hmem, -⟩ := origins_of_changedMapping? hinner
        have hwithin : origin ∈ entriesOrigins inner := mem_origins_of_valueOf? hold hmem
        have hne : o' ≠ origin := by
          intro heq
          subst heq
          exact hheld.not_mem hshared hwithin
        rw [Value.share, if_neg hne]
        exact ih hheld.temporary hinner o'
      | none =>
        simp only [hinner] at hchanged
        split at hchanged
        · -- it is the one here, and it gets what has been written
          cases hchanged
          rw [Value.share, if_pos rfl]
          exact getPath_setPathIn ..
        · cases hchanged

end

/-! ## Sessions -/

namespace Session

variable {s : Session}

theorem getPath_assignPath (h : (Value.mapping .temporary s.state.vars).IsAcyclic) (key : String)
    (keys : List String) (v : Value) :
    (Value.mapping .temporary (s.assignPath key keys v).state.vars).getPath (key :: keys)
      = .ok v := by
  rw [assignPath]
  split
  · rename_i origin contents hchanged
    exact getPath_shareEntries_setPathIn h hchanged .temporary
  · exact getPath_setPathIn s.numbered v key keys .temporary s.state.vars

/-- A variable has the value that has been assigned to it, whatever its name is. -/
theorem get_assign (h : (Value.mapping .temporary s.state.vars).IsAcyclic) (name : String)
    (v : Value) : (s.assign name v).get name = .ok v := by
  obtain ⟨first, rest, hsplit⟩ := List.exists_cons_of_ne_nil (splitAtChar_ne_nil '.' name.toList)
  have hassign : s.assign name v
      = s.assignPath (String.ofList first) (rest.map String.ofList) v := by
    rw [assign, hsplit]
    rfl
  rw [get, hassign, hsplit, List.map_cons, getPath_assignPath h]
  rfl

end Session

/-- A variable has what is assigned to it in every session of a compiled template, whatever has been
    assigned, parsed, handed out and forgotten before, if the values that the host has supplied have
    no mappings in common and no cycles. -/
theorem get_assign_of_performAll {code : List Char} {t : CompiledTemplate} {config : Config}
    {callbacks : Registry} {operations : List Operation} (ht : compileTemplate code = .ok t)
    (hcallbacks : ∀ P, callbacks.StaysWithin P)
    (hnew : AreNew [] (.mapping .globals config.globals :: operations.flatMap Operation.values))
    (fileName sourceHash name : String) (v : Value) :
    (((Session.start fileName config callbacks sourceHash t).performAll operations).2.assign
      name v).get name = .ok v := by
  obtain ⟨hglobals, hvalues⟩ := hnew
  rw [List.append_nil] at hvalues
  have hstart := Session.isOrdered_start fileName sourceHash ht hcallbacks hglobals
  exact Session.get_assign (Session.isOrdered_performAll hstart hvalues).isAcyclic name v

/-- What is put at a path of a mapping is got from it, and putting something else there afterwards
    is the same as putting that at once. So a variable that is assigned by a name, dotted or not,
    has the assigned value in every session in which no mapping lies within itself, and such are all
    sessions of a host whose values have no mappings in common and no cycles. -/
theorem assigned_is_read_back :
    (∀ (root : Value) (keys : List String) (v w : Value) (fresh fresh' : Nat),
        root.isMapping → keys ≠ [] →
        ∃ first second, root.setPath fresh keys v = .ok first ∧ first.getPath keys = .ok v
          ∧ first.setPath fresh' keys w = .ok second ∧ root.setPath fresh keys w = .ok second)
      ∧ (∀ (s : Session) (name : String) (v : Value),
        (Value.mapping .temporary s.state.vars).IsAcyclic →
        (s.assign name v).get name = .ok v)
      ∧ ∀ (code : List Char) (t : CompiledTemplate) (fileName sourceHash : String)
          (config : Config) (callbacks : Registry) (operations : List Operation),
        compileTemplate code = .ok t → (∀ P, callbacks.StaysWithin P) →
        AreNew [] (.mapping .globals config.globals :: operations.flatMap Operation.values) →
        ∀ (name : String) (v : Value),
          (((Session.start fileName config callbacks sourceHash t).performAll operations).2.assign
            name v).get name = .ok v := by
  refine ⟨?_, fun s name v h => s.get_assign h name v, ?_⟩
  · intro root keys v w fresh fresh' hroot hkeys
    obtain ⟨key, keys, rfl⟩ := List.exists_cons_of_ne_nil hkeys
    cases root with
    | mapping o entries =>
      have hsecond := setPathIn_setPathIn fresh fresh' v w key keys entries
      refine ⟨_, _, rfl, getPath_setPathIn fresh v key keys o entries, rfl, ?_⟩
      rw [Value.setPath, hsecond]
    | _ => exact nomatch hroot
  · intro code t fileName sourceHash config callbacks operations ht hcallbacks hnew name v
    exact get_assign_of_performAll ht hcallbacks hnew fileName sourceHash name v

/-- A mapping with an integer key and the text key that looks like it. -/
def assignedMapping (number : Nat) : Value :=
  .mapping (.host number) [(.int 1, .int 5), (.text "1", .sequence (.host 7) [.int 6])]

/-- Such a mapping has nothing in common with other ones. -/
theorem isNew_assignedMapping {given : List Origin} {number : Nat} (h : .host number ∉ given) :
    (assignedMapping number).IsNew given where
  origins := by
    simpa [assignedMapping, Value.origins, entriesOrigins, itemsOrigins, Origin.IsNew] using h
  ranked := by
    refine ⟨fun _ => 0, ?_⟩
    simp [assignedMapping, Value.Within, Value.containers, entriesContainers, itemsContainers,
      Value.Descends, Value.origins, entriesOrigins, itemsOrigins]

/-- A mapping under two names, a session with two mappings whose block has been parsed, and names
    with an empty and a numeric part. -/
theorem assigned_is_read_back_of_shared :
    let start (t : CompiledTemplate) : Session := .start "page" {} .default "0" t
    let s : Session := { start ⟨[], [], []⟩ with
      state := ⟨[(.text "A", assignedMapping 0), (.text "B", assignedMapping 0)], []⟩ }
    let operations : List Operation :=
      [.assign "A.b" (assignedMapping 0), .assign "B" (assignedMapping 1), .parse "MAIN"]
    (∃ first second, (assignedMapping 0).setPath 0 ["1", "", "x"] (.int 7) = .ok first
        ∧ first.setPath 1 ["1", "", "x"] (.int 8) = .ok second
        ∧ second.getPath ["1", "", "x"] = .ok (.int 8))
      ∧ (s.assign "A.1..x" (.int 7)).get "A.1..x" = .ok (.int 7)
      ∧ ∃ t, compileTemplate "<!-- BEGIN: MAIN -->.<!-- END: MAIN -->".toList = .ok t
        ∧ (((start t).performAll operations).2.assign "A.b.1..x" (.int 7)).get "A.b.1..x"
          = .ok (.int 7) := by
  intro start s operations
  obtain ⟨hvalues, hsessions, hreached⟩ := assigned_is_read_back
  refine ⟨?_, ?_, ?_⟩
  · obtain ⟨first, second, hfirst, -, hsecond, hwhole⟩ := hvalues (assignedMapping 0)
      ["1", "", "x"] (.int 7) (.int 8) 0 1 rfl (List.cons_ne_nil _ _)
    obtain ⟨whole, _, hwhole', hread, -⟩ := hvalues (assignedMapping 0) ["1", "", "x"] (.int 8)
      .null 0 0 rfl (List.cons_ne_nil _ _)
    rw [hwhole] at hwhole'
    cases hwhole'
    exact ⟨first, second, hfirst, hsecond, hread⟩
  · have hacyclic : (Value.mapping .temporary s.state.vars).IsAcyclic := by
      simp [s, assignedMapping, Value.IsAcyclic, Value.Within, Value.containers, itemsContainers,
        entriesContainers, entriesOrigins, itemsOrigins, Value.origins]
    exact hsessions s "A.1..x" (.int 7) hacyclic
  · have hcompiled : (compileTemplate "<!-- BEGIN: MAIN -->.<!-- END: MAIN -->".toList).map
        (fun _ => ()) = .ok () := by cbv
    obtain ⟨t, ht, -⟩ := exists_of_map_eq_ok hcompiled
    have hglobals : (Value.mapping .globals []).IsNew [] :=
      ⟨by simp [Value.origins, entriesOrigins, Origin.IsNew],
        fun _ => 0, by simp [Value.Within, Value.containers, entriesContainers, Value.Descends,
          entriesOrigins]⟩
    have hnew : AreNew [] (.mapping .globals [] :: operations.flatMap Operation.values) := by
      refine ⟨hglobals, isNew_assignedMapping ?_, isNew_assignedMapping ?_, trivial⟩
      · simp [Value.origins, entriesOrigins]
      · simp [assignedMapping, Value.origins, entriesOrigins, itemsOrigins]
    exact ⟨t, ht, hreached _ t "page" "0" {} .default operations ht staysWithin_default hnew
      "A.b.1..x" (.int 7)⟩

end BlockTemplate
