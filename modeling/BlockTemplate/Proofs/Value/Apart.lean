import BlockTemplate.Proofs.Value.Containers
import BlockTemplate.Value.Sharing

/-!
# Values apart from others

A dotted assignment changes a mapping wherever it occurs, so that what keeps a value from being
changed is that it has no mapping in common with what is assigned to. The mappings in a value are
told by their origins.

## Key results

- `share_eq_self`: a value without the changed mapping stays as it is
- `exists_setPathIn`, `origins_of_changedMapping?`: what an assignment brings into a variable, and
  which mapping it changes
-/

namespace BlockTemplate

mutual

/-- The origins of the mappings in a value. -/
def Value.origins : Value → List Origin
  | .mapping origin entries => origin :: entriesOrigins entries
  | .sequence _ items => itemsOrigins items
  | .object _ _ attributes items => attributesOrigins attributes ++ yieldsOrigins items
  | _ => []

def itemsOrigins : List Value → List Origin
  | [] => []
  | v :: rest => v.origins ++ itemsOrigins rest

def entriesOrigins : List (Key × Value) → List Origin
  | [] => []
  | (_, v) :: rest => v.origins ++ entriesOrigins rest

def attributesOrigins : List (String × Value) → List Origin
  | [] => []
  | (_, v) :: rest => v.origins ++ attributesOrigins rest

def yieldsOrigins : Option (List Value) → List Origin
  | none => []
  | some items => itemsOrigins items

end

/-- Whether no mapping in a value is one of those that are owned. -/
def Value.ApartFrom (owned : List Origin) (v : Value) : Prop := ∀ origin ∈ v.origins, origin ∉ owned

section
variable {owned : List Origin}

theorem mem_entriesOrigins {origin : Origin} {entries : List (Key × Value)} :
    origin ∈ entriesOrigins entries ↔ ∃ entry ∈ entries, origin ∈ entry.2.origins := by
  have hflat : entriesOrigins entries = entries.flatMap fun entry => entry.2.origins := by
    induction entries with
    | nil => rfl
    | cons entry rest ih => rw [entriesOrigins, ih, List.flatMap_cons]
  rw [hflat, List.mem_flatMap]

theorem apartFrom_of_isScalar {v : Value} (h : v.isScalar) : v.ApartFrom owned := by
  cases v with
  | null | bool _ | number _ | text _ => exact fun _ hmem => nomatch hmem
  | _ => exact nomatch h

theorem apartFrom_null : Value.null.ApartFrom owned := apartFrom_of_isScalar rfl

/-- What is within a value that is apart is apart. -/
theorem Value.ApartFrom.of_subset {v w : Value} (h : v.ApartFrom owned)
    (hsub : ∀ origin ∈ w.origins, origin ∈ v.origins) : w.ApartFrom owned :=
  fun origin hmem => h origin (hsub origin hmem)

/-! ## Reading -/

/-- The origin of a mapping. -/
def Value.mappingOrigin? : Value → Option Origin
  | .mapping origin _ => some origin
  | _ => none

mutual

theorem Value.origins_eq_filterMap :
    ∀ v : Value, v.origins = v.containers.filterMap Value.mappingOrigin?
  | .mapping origin entries => by
    rw [Value.origins, entriesOrigins_eq_filterMap]
    rfl
  | .sequence origin items => by
    rw [Value.origins, itemsOrigins_eq_filterMap]
    rfl
  | .object identity className attributes items => by
    rw [Value.origins, attributesOrigins_eq_filterMap, yieldsOrigins_eq_filterMap,
      ← List.filterMap_append]
    rfl
  | .null | .bool _ | .number _ | .text _ => rfl

theorem itemsOrigins_eq_filterMap : ∀ items : List Value,
    itemsOrigins items = (itemsContainers items).filterMap Value.mappingOrigin?
  | [] => rfl
  | v :: rest => by
    rw [itemsOrigins, itemsContainers, List.filterMap_append, v.origins_eq_filterMap,
      itemsOrigins_eq_filterMap rest]

theorem entriesOrigins_eq_filterMap : ∀ entries : List (Key × Value),
    entriesOrigins entries = (entriesContainers entries).filterMap Value.mappingOrigin?
  | [] => rfl
  | (_, v) :: rest => by
    rw [entriesOrigins, entriesContainers, List.filterMap_append, v.origins_eq_filterMap,
      entriesOrigins_eq_filterMap rest]

theorem attributesOrigins_eq_filterMap : ∀ attributes : List (String × Value),
    attributesOrigins attributes
      = (attributesContainers attributes).filterMap Value.mappingOrigin?
  | [] => rfl
  | (_, v) :: rest => by
    rw [attributesOrigins, attributesContainers, List.filterMap_append, v.origins_eq_filterMap,
      attributesOrigins_eq_filterMap rest]

theorem yieldsOrigins_eq_filterMap : ∀ items : Option (List Value),
    yieldsOrigins items = (yieldsContainers items).filterMap Value.mappingOrigin?
  | none => rfl
  | some items => itemsOrigins_eq_filterMap items

end

/-- What has no other containers than a value that is apart is apart. -/
theorem Value.ApartFrom.of_containers {v w : Value} (h : v.ApartFrom owned)
    (hsub : w.containers ⊆ v.containers) : w.ApartFrom owned := by
  refine h.of_subset fun origin hmem => ?_
  rw [Value.origins_eq_filterMap, List.mem_filterMap] at hmem ⊢
  obtain ⟨c, hc, horigin⟩ := hmem
  exact ⟨c, hsub hc, horigin⟩

/-- What a loop goes through is within the value. -/
theorem Value.ApartFrom.loopEntries {v : Value} (h : v.ApartFrom owned)
    {entries : List (Key × Value)} (hentries : v.loopEntries? = some entries) :
    ∀ entry ∈ entries, entry.2.ApartFrom owned :=
  fun _ hentry => h.of_containers (Value.containers_loopEntries hentries hentry)

end

/-! ## Sharing -/

mutual

/-- A value without the mapping that is changed stays as it is. -/
theorem Value.share_eq_self {origin : Origin} (contents : List (Key × Value)) :
    ∀ {v : Value}, origin ∉ v.origins → v.share origin contents = v
  | .mapping o entries, h => by
    rw [Value.origins, List.mem_cons, not_or] at h
    rw [Value.share, if_neg (Ne.symm h.1), shareEntries_eq_self contents h.2]
  | .sequence o items, h => by rw [Value.share, shareItems_eq_self contents h]
  | .object identity className attributes items, h => by
    rw [Value.origins, List.mem_append, not_or] at h
    rw [Value.share, shareAttributes_eq_self contents h.1, shareYields_eq_self contents h.2]
  | .null, _ | .bool _, _ | .number _, _ | .text _, _ => rfl

theorem shareItems_eq_self {origin : Origin} (contents : List (Key × Value)) :
    ∀ {items : List Value}, origin ∉ itemsOrigins items →
      shareItems origin contents items = items
  | [], _ => rfl
  | v :: rest, h => by
    rw [itemsOrigins, List.mem_append, not_or] at h
    rw [shareItems, v.share_eq_self contents h.1, shareItems_eq_self contents h.2]

theorem shareEntries_eq_self {origin : Origin} (contents : List (Key × Value)) :
    ∀ {entries : List (Key × Value)}, origin ∉ entriesOrigins entries →
      shareEntries origin contents entries = entries
  | [], _ => rfl
  | (key, v) :: rest, h => by
    rw [entriesOrigins, List.mem_append, not_or] at h
    rw [shareEntries, v.share_eq_self contents h.1, shareEntries_eq_self contents h.2]

theorem shareAttributes_eq_self {origin : Origin} (contents : List (Key × Value)) :
    ∀ {attributes : List (String × Value)}, origin ∉ attributesOrigins attributes →
      shareAttributes origin contents attributes = attributes
  | [], _ => rfl
  | (name, v) :: rest, h => by
    rw [attributesOrigins, List.mem_append, not_or] at h
    rw [shareAttributes, v.share_eq_self contents h.1, shareAttributes_eq_self contents h.2]

theorem shareYields_eq_self {origin : Origin} (contents : List (Key × Value)) :
    ∀ {items : Option (List Value)}, origin ∉ yieldsOrigins items →
      shareYields origin contents items = items
  | none, _ => rfl
  | some items, h => by rw [shareYields, shareItems_eq_self contents h]

end

section
variable {origin o : Origin} {contents : List (Key × Value)}

mutual

/-- A change of a mapping brings nothing into a value but what is written there. -/
theorem Value.mem_origins_share : ∀ {v : Value}, o ∈ (v.share origin contents).origins →
    o ∈ v.origins ∨ o ∈ entriesOrigins contents
  | .mapping other entries, h => by
    rw [Value.share] at h
    split at h
    · rcases List.mem_cons.1 h with rfl | h
      · exact .inl List.mem_cons_self
      · exact .inr h
    · rcases List.mem_cons.1 h with rfl | h
      · exact .inl List.mem_cons_self
      · exact (mem_origins_shareEntries h).imp_left (List.mem_cons_of_mem _)
  | .sequence _ _, h => mem_origins_shareItems h
  | .object _ _ _ _, h => by
    rcases List.mem_append.1 h with h | h
    · exact (mem_origins_shareAttributes h).imp_left (List.mem_append_left _)
    · exact (mem_origins_shareYields h).imp_left (List.mem_append_right _)
  | .null, h | .bool _, h | .number _, h | .text _, h => nomatch h

theorem mem_origins_shareItems : ∀ {items : List Value},
    o ∈ itemsOrigins (shareItems origin contents items) →
      o ∈ itemsOrigins items ∨ o ∈ entriesOrigins contents
  | [], h => nomatch h
  | v :: _, h => by
    rcases List.mem_append.1 h with h | h
    · exact (v.mem_origins_share h).imp_left (List.mem_append_left _)
    · exact (mem_origins_shareItems h).imp_left (List.mem_append_right _)

theorem mem_origins_shareEntries : ∀ {entries : List (Key × Value)},
    o ∈ entriesOrigins (shareEntries origin contents entries) →
      o ∈ entriesOrigins entries ∨ o ∈ entriesOrigins contents
  | [], h => nomatch h
  | (_, v) :: _, h => by
    rcases List.mem_append.1 h with h | h
    · exact (v.mem_origins_share h).imp_left (List.mem_append_left _)
    · exact (mem_origins_shareEntries h).imp_left (List.mem_append_right _)

theorem mem_origins_shareAttributes : ∀ {attributes : List (String × Value)},
    o ∈ attributesOrigins (shareAttributes origin contents attributes) →
      o ∈ attributesOrigins attributes ∨ o ∈ entriesOrigins contents
  | [], h => nomatch h
  | (_, v) :: _, h => by
    rcases List.mem_append.1 h with h | h
    · exact (v.mem_origins_share h).imp_left (List.mem_append_left _)
    · exact (mem_origins_shareAttributes h).imp_left (List.mem_append_right _)

theorem mem_origins_shareYields : ∀ {items : Option (List Value)},
    o ∈ yieldsOrigins (shareYields origin contents items) →
      o ∈ yieldsOrigins items ∨ o ∈ entriesOrigins contents
  | none, h => nomatch h
  | some _, h => mem_origins_shareItems h

end

/-- Sharing changes the values of entries one by one. -/
theorem mem_shareEntries {entries : List (Key × Value)} {entry : Key × Value}
    (h : entry ∈ shareEntries origin contents entries) :
    ∃ old ∈ entries, entry = (old.1, old.2.share origin contents) := by
  induction entries with
  | nil => exact nomatch h
  | cons first rest ih =>
    rcases List.mem_cons.1 h with rfl | h
    · exact ⟨first, List.mem_cons_self, rfl⟩
    · obtain ⟨old, hold, heq⟩ := ih h
      exact ⟨old, List.mem_cons_of_mem _ hold, heq⟩

end

/-! ## Writing -/

section
variable {o : Origin} {value : Value}

theorem mem_origins_upsert {key : Key} {entries : List (Key × Value)}
    (h : o ∈ entriesOrigins (upsert key value entries)) :
    o ∈ value.origins ∨ o ∈ entriesOrigins entries := by
  obtain ⟨entry, hentry, ho⟩ := mem_entriesOrigins.1 h
  exact forall_mem_upsert_of_congr
    (P := fun _ v => o ∈ v.origins → o ∈ value.origins ∨ o ∈ entriesOrigins entries)
    (fun _ hv => hv) .inl (fun e he ho => .inr (mem_entriesOrigins.2 ⟨e, he, ho⟩)) entry hentry ho

theorem eq_mapping_of_writableEntries? {v : Value} {inner : List (Key × Value)}
    (h : v.writableEntries? = some (o, inner)) : v = .mapping o inner := by
  unfold Value.writableEntries? at h
  split at h
  · exact nomatch h
  · cases h
    rfl
  · exact nomatch h

/-- A mapping on the way is the value of its key. -/
theorem valueOf?_of_writable {key : Key} {entries inner : List (Key × Value)}
    (h : (valueOf? key entries).bind Value.writableEntries? = some (o, inner)) :
    valueOf? key entries = some (.mapping o inner) := by
  obtain ⟨v, hv, hw⟩ := Option.bind_eq_some_iff.1 h
  rw [hv, eq_mapping_of_writableEntries? hw]

theorem mem_origins_of_valueOf? {key : Key} {entries : List (Key × Value)} {v : Value}
    (hv : valueOf? key entries = some v) (h : o ∈ v.origins) : o ∈ entriesOrigins entries := by
  obtain ⟨entry, hentry, rfl, -⟩ := mem_of_valueOf? hv
  exact mem_entriesOrigins.2 ⟨entry, hentry, h⟩

/-- The mapping that an assignment goes on with is the one on its way, or a new one. -/
theorem origins_of_way (fresh : Nat) (key : Key) (entries : List (Key × Value)) :
    let way := ((valueOf? key entries).bind Value.writableEntries?).getD (.assigned fresh, [])
    ∀ o ∈ (Value.mapping way.1 way.2).origins,
      o = .assigned fresh ∨ ∃ old ∈ valueOf? key entries, o ∈ old.origins := by
  intro way o ho
  dsimp only [way] at ho
  cases hway : (valueOf? key entries).bind Value.writableEntries? with
  | none =>
    rw [hway] at ho
    rcases List.mem_cons.1 ho with rfl | ho
    · exact .inl rfl
    · exact nomatch ho
  | some found =>
    rw [hway] at ho
    exact .inr ⟨_, valueOf?_of_writable hway, ho⟩

/-- An assignment brings in nothing but the value and new mappings, which are numbered one after the
    other. -/
theorem mem_origins_setPathIn {fresh : Nat} {key : String} {keys : List String}
    {entries : List (Key × Value)}
    (h : o ∈ entriesOrigins (setPathIn fresh value key keys entries)) :
    o ∈ value.origins ∨ (∃ n, fresh ≤ n ∧ n < fresh + keys.length ∧ o = .assigned n)
      ∨ o ∈ entriesOrigins entries := by
  induction keys generalizing fresh key entries with
  | nil => exact (mem_origins_upsert h).imp_right .inr
  | cons next rest ih =>
    rw [setPathIn] at h
    have hlength : fresh + (next :: rest).length = fresh + rest.length + 1 := rfl
    rcases mem_origins_upsert h with h | h
    · -- the mapping on the way, or a new one, with the value set in it
      have hway : o = .assigned fresh ∨ o ∈ entriesOrigins entries →
          o ∈ value.origins ∨ (∃ n, fresh ≤ n ∧ n < fresh + (next :: rest).length ∧ o = .assigned n)
            ∨ o ∈ entriesOrigins entries := by
        rintro (rfl | h)
        · exact .inr (.inl ⟨fresh, Nat.le_refl fresh, by omega, rfl⟩)
        · exact .inr (.inr h)
      have hheld := fun ho => (origins_of_way fresh (.text key) entries o ho).imp_right
        fun ⟨old, hold, ho⟩ => mem_origins_of_valueOf? hold ho
      rcases List.mem_cons.1 h with rfl | h
      · exact hway (hheld List.mem_cons_self)
      · obtain h | ⟨n, hle, hlt, rfl⟩ | h := ih h
        · exact .inl h
        · exact .inr (.inl ⟨n, by omega, by omega, rfl⟩)
        · exact hway (hheld (List.mem_cons_of_mem _ h))
    · exact .inr (.inr h)

/-- Where what an assignment leaves in a variable can come from: the assigned value, a new mapping
    on the way, or what the variable has held before. -/
def ComesFrom (value : Value) (held : Option Value) (o : Origin) : Prop :=
  o ∈ value.origins ∨ (∃ n, o = .assigned n) ∨ ∃ old ∈ held, o ∈ old.origins

/-- An assignment sets one variable, and keeps something of what is in it only if it is dotted. -/
theorem exists_setPathIn (fresh : Nat) (value : Value) (key : String) (keys : List String)
    (entries : List (Key × Value)) :
    ∃ v, setPathIn fresh value key keys entries = upsert (.text key) v entries
      ∧ ∀ o ∈ v.origins, o ∈ value.origins
        ∨ keys ≠ [] ∧ ComesFrom value (valueOf? (.text key) entries) o := by
  cases keys with
  | nil => exact ⟨value, rfl, fun _ ho => .inl ho⟩
  | cons next rest =>
    refine ⟨_, rfl, fun o ho => .inr ⟨List.cons_ne_nil next rest, ?_⟩⟩
    have hnew (heq : o = .assigned fresh) : ∃ n, o = .assigned n := ⟨fresh, heq⟩
    have hway := fun ho => (origins_of_way fresh (.text key) entries o ho).imp_left hnew
    rcases List.mem_cons.1 ho with rfl | ho
    · exact .inr (hway List.mem_cons_self)
    · obtain ho | ⟨n, -, -, ho⟩ | ho := mem_origins_setPathIn ho
      · exact .inl ho
      · exact .inr (.inl ⟨n, ho⟩)
      · exact .inr (hway (List.mem_cons_of_mem _ ho))

/-- A dotted assignment changes a mapping that the variable holds. -/
theorem origins_of_changedMapping? {fresh : Nat} {value : Value} {key : String}
    {keys : List String} {entries : List (Key × Value)} {origin : Origin}
    {contents : List (Key × Value)}
    (h : changedMapping? fresh value key keys entries = some (origin, contents)) :
    keys ≠ [] ∧ ∃ old, valueOf? (.text key) entries = some old ∧ origin ∈ old.origins
      ∧ ∀ o ∈ entriesOrigins contents, ComesFrom value (some old) o := by
  induction keys generalizing fresh key entries with
  | nil => exact nomatch h
  | cons next rest ih =>
    refine ⟨List.cons_ne_nil next rest, ?_⟩
    rw [changedMapping?] at h
    cases hway : (valueOf? (.text key) entries).bind Value.writableEntries? with
    | none =>
      rw [hway] at h
      exact nomatch h
    | some way =>
      obtain ⟨o, inner⟩ := way
      rw [hway] at h
      refine ⟨_, valueOf?_of_writable hway, ?_⟩
      cases hinner : changedMapping? (fresh + 1) value next rest inner with
      | some changed =>
        -- a mapping further down is within the one here
        simp only [hinner] at h
        cases h
        obtain ⟨-, old, hold, horigin, hcomes⟩ := ih hinner
        have hwithin {o' : Origin} (ho' : o' ∈ old.origins) :
            o' ∈ (Value.mapping o inner).origins :=
          List.mem_cons_of_mem _ (mem_origins_of_valueOf? hold ho')
        refine ⟨hwithin horigin, fun o' ho' => ?_⟩
        obtain ho' | hnew | ⟨_, ⟨⟩, ho'⟩ := hcomes o' ho'
        · exact .inl ho'
        · exact .inr (.inl hnew)
        · exact .inr (.inr ⟨_, rfl, hwithin ho'⟩)
      | none =>
        simp only [hinner] at h
        split at h
        · cases h
          refine ⟨List.mem_cons_self, fun o' ho' => ?_⟩
          obtain ho' | ⟨n, -, -, ho'⟩ | ho' := mem_origins_setPathIn ho'
          · exact .inl ho'
          · exact .inr (.inl ⟨n, ho'⟩)
          · exact .inr (.inr ⟨_, rfl, List.mem_cons_of_mem _ ho'⟩)
        · exact nomatch h

end

end BlockTemplate
