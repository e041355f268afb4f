import BlockTemplate.Proofs.Outcome
import BlockTemplate.Reference.Resolve

/-!
# Containers in values

The sequences, mappings and objects in a value, at any depth. What a path or a loop reads from a
value has no containers but those of the value.

## Key results

- `Value.containers_trans`: what is within a container of a value is within the value
- `Value.containers_step`: a step of a path stays within the value
- `Value.containers_loopEntries`: so does what a loop goes through
-/

namespace BlockTemplate

mutual

/-- The containers in a value, the value itself included. -/
def Value.containers : Value → List Value
  | .sequence origin items => .sequence origin items :: itemsContainers items
  | .mapping origin entries => .mapping origin entries :: entriesContainers entries
  | .object identity className attributes items =>
    .object identity className attributes items
      :: (attributesContainers attributes ++ yieldsContainers items)
  | _ => []

def itemsContainers : List Value → List Value
  | [] => []
  | v :: rest => v.containers ++ itemsContainers rest

def entriesContainers : List (Key × Value) → List Value
  | [] => []
  | (_, v) :: rest => v.containers ++ entriesContainers rest

def attributesContainers : List (String × Value) → List Value
  | [] => []
  | (_, v) :: rest => v.containers ++ attributesContainers rest

def yieldsContainers : Option (List Value) → List Value
  | none => []
  | some items => itemsContainers items

end

section
variable {c : Value}

theorem mem_itemsContainers {items : List Value} :
    c ∈ itemsContainers items ↔ ∃ v ∈ items, c ∈ v.containers := by
  have hflat : itemsContainers items = items.flatMap Value.containers := by
    induction items with
    | nil => rfl
    | cons v rest ih => rw [itemsContainers, ih, List.flatMap_cons]
  rw [hflat, List.mem_flatMap]

theorem mem_entriesContainers {entries : List (Key × Value)} :
    c ∈ entriesContainers entries ↔ ∃ entry ∈ entries, c ∈ entry.2.containers := by
  have hflat : entriesContainers entries = entries.flatMap fun entry => entry.2.containers := by
    induction entries with
    | nil => rfl
    | cons entry rest ih => rw [entriesContainers, ih, List.flatMap_cons]
  rw [hflat, List.mem_flatMap]

theorem mem_attributesContainers {attributes : List (String × Value)} :
    c ∈ attributesContainers attributes ↔ ∃ entry ∈ attributes, c ∈ entry.2.containers := by
  have hflat : attributesContainers attributes
      = attributes.flatMap fun entry => entry.2.containers := by
    induction attributes with
    | nil => rfl
    | cons entry rest ih => rw [attributesContainers, ih, List.flatMap_cons]
  rw [hflat, List.mem_flatMap]

theorem containers_of_isScalar {v : Value} (h : v.isScalar) : v.containers = [] := by
  cases v with
  | null | bool _ | number _ | text _ => rfl
  | _ => exact nomatch h

mutual

/-- What is within a container of a value is within the value. -/
theorem Value.containers_trans : ∀ {v : Value}, c ∈ v.containers → c.containers ⊆ v.containers
  | .sequence _ items, h => by
    rcases List.mem_cons.1 h with rfl | h
    · exact List.Subset.refl _
    · exact List.subset_cons_of_subset _ (itemsContainers_trans h)
  | .mapping _ entries, h => by
    rcases List.mem_cons.1 h with rfl | h
    · exact List.Subset.refl _
    · exact List.subset_cons_of_subset _ (entriesContainers_trans h)
  | .object _ _ attributes items, h => by
    rcases List.mem_cons.1 h with rfl | h
    · exact List.Subset.refl _
    · apply List.subset_cons_of_subset
      rcases List.mem_append.1 h with h | h
      · exact List.subset_append_of_subset_left _ (attributesContainers_trans h)
      · exact List.subset_append_of_subset_right _ (yieldsContainers_trans h)
  | .null, h | .bool _, h | .number _, h | .text _, h => nomatch h

theorem itemsContainers_trans :
    ∀ {items : List Value}, c ∈ itemsContainers items → c.containers ⊆ itemsContainers items
  | [], h => nomatch h
  | v :: rest, h => by
    rcases List.mem_append.1 h with h | h
    · exact List.subset_append_of_subset_left _ (v.containers_trans h)
    · exact List.subset_append_of_subset_right _ (itemsContainers_trans h)

theorem entriesContainers_trans : ∀ {entries : List (Key × Value)},
    c ∈ entriesContainers entries → c.containers ⊆ entriesContainers entries
  | [], h => nomatch h
  | (_, v) :: rest, h => by
    rcases List.mem_append.1 h with h | h
    · exact List.subset_append_of_subset_left _ (v.containers_trans h)
    · exact List.subset_append_of_subset_right _ (entriesContainers_trans h)

theorem attributesContainers_trans : ∀ {attributes : List (String × Value)},
    c ∈ attributesContainers attributes → c.containers ⊆ attributesContainers attributes
  | [], h => nomatch h
  | (_, v) :: rest, h => by
    rcases List.mem_append.1 h with h | h
    · exact List.subset_append_of_subset_left _ (v.containers_trans h)
    · exact List.subset_append_of_subset_right _ (attributesContainers_trans h)

theorem yieldsContainers_trans : ∀ {items : Option (List Value)},
    c ∈ yieldsContainers items → c.containers ⊆ yieldsContainers items
  | none, h => nomatch h
  | some _, h => itemsContainers_trans h

end

/-! ## Reading -/

theorem containers_of_valueOf? {o : Origin} {entries : List (Key × Value)} {key : Key} {v : Value}
    (hv : valueOf? key entries = some v) : v.containers ⊆ (Value.mapping o entries).containers := by
  obtain ⟨entry, hentry, rfl, -⟩ := mem_of_valueOf? hv
  intro c hc
  exact List.mem_cons_of_mem _ (mem_entriesContainers.2 ⟨entry, hentry, hc⟩)

theorem containers_null_subset (v : Value) : Value.null.containers ⊆ v.containers :=
  List.nil_subset _

theorem Value.containers_item {v w : Value} {key : String} (hw : v.item key = .ok w) :
    w.containers ⊆ v.containers := by
  -- by the kinds of value that have items: each item is one of the parts, or it is null
  match v with
  | .mapping o entries =>
    obtain ⟨found, hfound, hw⟩ := exists_of_bind_eq_ok hw
    cases hw
    unfold entryAt? at hfound
    split at hfound
    · rename_i value hvalue
      cases hfound
      exact containers_of_valueOf? hvalue
    · obtain ⟨position, -, hfound⟩ := exists_of_bind_eq_ok hfound
      cases hfound
      cases hvalue : position.bind fun n => valueOf? (.int n) entries with
      | none => exact containers_null_subset _
      | some value =>
        obtain ⟨n, -, hvalue⟩ := Option.bind_eq_some_iff.1 hvalue
        exact containers_of_valueOf? hvalue
  | .sequence o items =>
    obtain ⟨position, -, hw⟩ := exists_of_bind_eq_ok hw
    cases hw
    cases hvalue : position.bind (items[·]?) with
    | none => exact containers_null_subset _
    | some value =>
      obtain ⟨n, -, hvalue⟩ := Option.bind_eq_some_iff.1 hvalue
      intro c hc
      exact List.mem_cons_of_mem _
        (mem_itemsContainers.2 ⟨value, List.mem_of_getElem? hvalue, hc⟩)
  | .object identity className attributes items =>
    cases hw
    split
    · exact containers_null_subset _
    · cases hvalue : valueOf? key attributes with
      | none => exact containers_null_subset _
      | some value =>
        obtain ⟨entry, hentry, rfl, -⟩ := mem_of_valueOf? hvalue
        intro c hc
        exact List.mem_cons_of_mem _
          (List.mem_append_left _ (mem_attributesContainers.2 ⟨entry, hentry, hc⟩))
  | .null | .bool _ | .number _ | .text _ =>
    cases hw
    exact containers_null_subset _

/-- A step of a path in a tag stays within the value. -/
theorem Value.containers_step {v w : Value} {label : Label} (hw : v.step label = .ok w) :
    w.containers ⊆ v.containers := by
  unfold Value.step at hw
  split at hw
  · exact containers_item (eq_ok_of_mapError_eq_ok hw)
  · rename_i entries _
    obtain ⟨key, -, hw⟩ := exists_of_bind_eq_ok hw
    split at hw
    · rename_i value hvalue
      cases hw
      exact containers_of_valueOf? hvalue
    · exact nomatch hw
  · exact nomatch hw
  · exact nomatch hw
  · cases hw
    exact containers_null_subset _

theorem mem_of_mem_indexed {start : Nat} {items : List Value} {entry : Key × Value}
    (h : entry ∈ Value.indexed start items) : entry.2 ∈ items := by
  induction items generalizing start with
  | nil => exact nomatch h
  | cons first rest ih =>
    rcases List.mem_cons.1 h with rfl | h
    · exact List.mem_cons_self
    · exact List.mem_cons_of_mem _ (ih h)

/-- What a loop goes through is within the value. -/
theorem Value.containers_loopEntries {v : Value} {entries : List (Key × Value)}
    (hentries : v.loopEntries? = some entries) {entry : Key × Value} (hentry : entry ∈ entries) :
    entry.2.containers ⊆ v.containers := by
  intro c hc
  match v with
  | .mapping o entries' =>
    cases hentries
    exact List.mem_cons_of_mem _ (mem_entriesContainers.2 ⟨entry, hentry, hc⟩)
  | .sequence o items =>
    cases hentries
    exact List.mem_cons_of_mem _
      (mem_itemsContainers.2 ⟨entry.2, mem_of_mem_indexed hentry, hc⟩)
  | .object identity className attributes (some items) =>
    cases hentries
    exact List.mem_cons_of_mem _ (List.mem_append_right _
      (mem_itemsContainers.2 ⟨entry.2, mem_of_mem_indexed hentry, hc⟩))
  | .object _ _ _ none | .null | .bool _ | .number _ | .text _ => exact nomatch hentries

end

/-! ## Identity -/

/-- What tells a container from all others. A temporary array is held by nobody else. -/
def Value.identity? : Value → Option (Origin ⊕ Nat)
  | .sequence .temporary _ | .mapping .temporary _ => none
  | .sequence origin _ | .mapping origin _ => some (.inl origin)
  | .object identity .. => some (.inr identity)
  | _ => none

/-- Whether a container is as it was: it is one of the containers before, unless it is a new one. -/
def Value.IsUnchanged (before : List Value) (c : Value) : Prop :=
  ∀ identity ∈ c.identity?, (∃ old ∈ before, old.identity? = some identity) → c ∈ before

/-- Where containers of one identity have one content, a container has the content that it had. -/
theorem Value.IsUnchanged.eq {before : List Value} {c old : Value} (h : c.IsUnchanged before)
    (hcontents : ∀ c ∈ before, ∀ d ∈ before, ∀ identity ∈ c.identity?,
      d.identity? = some identity → c = d)
    (hold : old ∈ before) {identity : Origin ⊕ Nat} (hc : c.identity? = some identity)
    (hidentity : old.identity? = some identity) : c = old := by
  have hmem : c ∈ before := h identity hc ⟨old, hold, hidentity⟩
  exact hcontents c hmem old hold identity hc hidentity

/-! ## Properties of containers -/

/-- Whether all containers in a value have a property. -/
def Value.Within (P : Value → Prop) (v : Value) : Prop := ∀ c ∈ v.containers, P c

section
variable {P : Value → Prop} {v w : Value}

theorem Value.Within.of_subset (h : v.Within P) (hsub : w.containers ⊆ v.containers) : w.Within P :=
  fun c hc => h c (hsub hc)

theorem within_mapping {o : Origin} {entries : List (Key × Value)} :
    (Value.mapping o entries).Within P
      ↔ P (.mapping o entries) ∧ ∀ entry ∈ entries, entry.2.Within P := by
  constructor
  · intro h
    constructor
    · exact h _ List.mem_cons_self
    · intro entry hentry c hc
      exact h c (List.mem_cons_of_mem _ (mem_entriesContainers.2 ⟨entry, hentry, hc⟩))
  · rintro ⟨hself, hentries⟩ c hc
    rcases List.mem_cons.1 hc with rfl | hc
    · exact hself
    · obtain ⟨entry, hentry, hc⟩ := mem_entriesContainers.1 hc
      exact hentries entry hentry c hc

theorem within_of_isScalar (h : v.isScalar) : v.Within P := by
  rw [Value.Within, containers_of_isScalar h]
  exact List.forall_mem_nil _

end

end BlockTemplate
