/-!
# Ordered maps

A map with an order of entries is a list of pairs with distinct keys. A new key goes to the end, and
a new value for a present key takes the old one's place. Keys are told apart by `==`; of equal keys
the one that came first stays.
-/

namespace BlockTemplate

variable {κ β : Type}

/-- Set the value of a key. -/
def upsert [BEq κ] (key : κ) (value : β) : List (κ × β) → List (κ × β)
  | [] => [(key, value)]
  | (k, v) :: rest => if k == key then (k, value) :: rest else (k, v) :: upsert key value rest

/-- The entry of a key. -/
def entryOf? [BEq κ] (key : κ) : List (κ × β) → Option (κ × β)
  | [] => none
  | (k, v) :: rest => if k == key then some (k, v) else entryOf? key rest

/-- The value of a key. -/
def valueOf? [BEq κ] (key : κ) : List (κ × β) → Option β
  | [] => none
  | (k, v) :: rest => if k == key then some v else valueOf? key rest

/-- Remove a key. -/
def removeKey [BEq κ] (key : κ) : List (κ × β) → List (κ × β)
  | [] => []
  | (k, v) :: rest => if k == key then removeKey key rest else (k, v) :: removeKey key rest

/-- The map that results from setting the keys one after the other. -/
def ofEntries [BEq κ] (entries : List (κ × β)) : List (κ × β) :=
  entries.foldl (fun map (k, v) => upsert k v map) []

theorem valueOf?_eq_map_entryOf? [BEq κ] (key : κ) (map : List (κ × β)) :
    valueOf? key map = (entryOf? key map).map (·.2) := by
  induction map with
  | nil => rfl
  | cons entry rest ih =>
    simp only [valueOf?, entryOf?]
    split <;> simp_all

/-- Equal keys have one value. -/
theorem valueOf?_congr [BEq κ] [PartialEquivBEq κ] {key other : κ} (h : key == other)
    (map : List (κ × β)) : valueOf? key map = valueOf? other map := by
  induction map with
  | nil => rfl
  | cons entry rest ih => simp only [valueOf?, BEq.congr_right h, ih]

@[simp] theorem valueOf?_upsert_self [BEq κ] [ReflBEq κ] (key : κ) (value : β)
    (map : List (κ × β)) : valueOf? key (upsert key value map) = some value := by
  induction map with
  | nil => simp [upsert, valueOf?]
  | cons entry rest ih =>
    simp only [upsert]
    split <;> simp_all [valueOf?]

theorem valueOf?_upsert_of_ne [BEq κ] [PartialEquivBEq κ] {key other : κ}
    (h : (key == other) = false) (value : β) (map : List (κ × β)) :
    valueOf? other (upsert key value map) = valueOf? other map := by
  induction map with
  | nil => simp [upsert, valueOf?, h]
  | cons entry rest ih =>
    simp only [upsert]
    split
    · rename_i hk
      -- the key in its place is no more the other one than the key itself
      simp [valueOf?, BEq.congr_left hk, h]
    · simp [valueOf?, ih]

/-- Setting a key twice keeps the second value only. -/
@[simp] theorem upsert_upsert_self [BEq κ] [ReflBEq κ] (key : κ) (v w : β) (map : List (κ × β)) :
    upsert key w (upsert key v map) = upsert key w map := by
  induction map with
  | nil => simp [upsert]
  | cons entry rest ih =>
    simp only [upsert]
    split <;> simp_all [upsert]

/-- Removing a key leaves the other ones. -/
theorem valueOf?_removeKey_of_ne [BEq κ] [PartialEquivBEq κ] {key other : κ}
    (h : (key == other) = false) (map : List (κ × β)) :
    valueOf? other (removeKey key map) = valueOf? other map := by
  induction map with
  | nil => rfl
  | cons entry rest ih =>
    simp only [removeKey]
    split
    · rename_i hk
      rw [ih]
      -- the removed entry is no more the other one than the key itself
      simp [valueOf?, BEq.congr_left hk, h]
    · simp [valueOf?, ih]

@[simp] theorem valueOf?_removeKey_self [BEq κ] (key : κ) (map : List (κ × β)) :
    valueOf? key (removeKey key map) = none := by
  induction map with
  | nil => rfl
  | cons entry rest ih =>
    simp only [removeKey]
    split
    · exact ih
    · rename_i hk
      simp [valueOf?, hk, ih]

theorem valueOf?_append_of_some [BEq κ] {key : κ} {value : β} {map : List (κ × β)}
    (h : valueOf? key map = some value) (others : List (κ × β)) :
    valueOf? key (map ++ others) = some value := by
  induction map with
  | nil => exact nomatch h
  | cons entry rest ih =>
    rw [valueOf?] at h
    rw [List.cons_append, valueOf?]
    split
    · rename_i hkey
      rw [if_pos hkey] at h
      exact h
    · rename_i hkey
      rw [if_neg hkey] at h
      exact ih h

/-- No entry has a key without a value. -/
theorem not_beq_of_valueOf?_eq_none [BEq κ] {key : κ} {map : List (κ × β)}
    (h : valueOf? key map = none) : ∀ entry ∈ map, (entry.1 == key) = false := by
  induction map with
  | nil => exact List.forall_mem_nil _
  | cons entry rest ih =>
    rw [valueOf?] at h
    split at h
    · exact nomatch h
    · rename_i hkey
      exact List.forall_mem_cons.2 ⟨Bool.eq_false_iff.2 hkey, ih h⟩

/-! ## Distinct keys -/

/-- No two entries have one key. -/
def DistinctKeys [BEq κ] (map : List (κ × β)) : Prop :=
  map.Pairwise fun a b => (a.1 == b.1) = false

/-- A new key goes to the end. -/
theorem upsert_of_new [BEq κ] {key : κ} {map : List (κ × β)}
    (h : ∀ entry ∈ map, (entry.1 == key) = false) (value : β) :
    upsert key value map = map ++ [(key, value)] := by
  induction map with
  | nil => rfl
  | cons entry rest ih =>
    have hentry := h entry List.mem_cons_self
    have hrest := ih fun e he => h e (List.mem_cons_of_mem _ he)
    simp [upsert, hentry, hrest]

theorem key_of_mem_upsert [BEq κ] {key : κ} {value : β} {map : List (κ × β)} {entry : κ × β}
    (h : entry ∈ upsert key value map) : entry.1 = key ∨ ∃ old ∈ map, old.1 = entry.1 := by
  induction map with
  | nil => exact .inl (congrArg Prod.fst (List.mem_singleton.1 h))
  | cons first rest ih =>
    simp only [upsert] at h
    split at h
    · rcases List.mem_cons.1 h with rfl | h
      · exact .inr ⟨first, List.mem_cons_self, rfl⟩
      · exact .inr ⟨entry, List.mem_cons_of_mem _ h, rfl⟩
    · rcases List.mem_cons.1 h with rfl | h
      · exact .inr ⟨_, List.mem_cons_self, rfl⟩
      · obtain hkey | ⟨old, hold, heq⟩ := ih h
        · exact .inl hkey
        · exact .inr ⟨old, List.mem_cons_of_mem _ hold, heq⟩

theorem distinctKeys_upsert [BEq κ] {map : List (κ × β)} (h : DistinctKeys map) (key : κ)
    (value : β) : DistinctKeys (upsert key value map) := by
  induction map with
  | nil => exact List.pairwise_singleton _ _
  | cons first rest ih =>
    obtain ⟨hfirst, hrest⟩ := List.pairwise_cons.1 h
    simp only [upsert]
    split
    · exact List.pairwise_cons.2 ⟨hfirst, hrest⟩
    · rename_i hne
      refine List.pairwise_cons.2 ⟨fun entry hentry => ?_, ih hrest⟩
      obtain hkey | ⟨old, hold, heq⟩ := key_of_mem_upsert hentry
      · rw [hkey]
        exact Bool.eq_false_iff.2 hne
      · rw [← heq]
        exact hfirst old hold

private theorem distinctKeys_foldl_upsert [BEq κ] (entries : List (κ × β)) {map : List (κ × β)}
    (h : DistinctKeys map) :
    DistinctKeys (entries.foldl (fun map (k, v) => upsert k v map) map) := by
  induction entries generalizing map with
  | nil => exact h
  | cons entry rest ih => exact ih (distinctKeys_upsert h entry.1 entry.2)

/-- Setting keys never makes two entries of one key. -/
theorem distinctKeys_ofEntries [BEq κ] (entries : List (κ × β)) :
    DistinctKeys (ofEntries entries) :=
  distinctKeys_foldl_upsert entries List.Pairwise.nil

private theorem foldl_upsert_of_distinct [BEq κ] (map : List (κ × β)) {entries : List (κ × β)}
    (h : DistinctKeys (map ++ entries)) :
    entries.foldl (fun map (k, v) => upsert k v map) map = map ++ entries := by
  induction entries generalizing map with
  | nil => exact (List.append_nil _).symm
  | cons entry rest ih =>
    have hnew : ∀ e ∈ map, (e.1 == entry.1) = false := fun e he =>
      (List.pairwise_append.1 h).2.2 e he entry List.mem_cons_self
    rw [List.append_cons] at h ⊢
    rw [← ih _ h, List.foldl_cons, ← upsert_of_new hnew]

/-- Distinct keys are set as they are given. -/
theorem ofEntries_eq_self [BEq κ] {entries : List (κ × β)} (h : DistinctKeys entries) :
    ofEntries entries = entries :=
  foldl_upsert_of_distinct [] h

/-- The entry of a key is found, for no other has the key. -/
theorem entryOf?_of_mem [BEq κ] [ReflBEq κ] {entry : κ × β} {map : List (κ × β)}
    (h : DistinctKeys map) (hmem : entry ∈ map) : entryOf? entry.1 map = some entry := by
  induction map with
  | nil => exact nomatch hmem
  | cons first rest ih =>
    obtain ⟨hfirst, hrest⟩ := List.pairwise_cons.1 h
    rcases List.mem_cons.1 hmem with rfl | hmem
    · simp [entryOf?]
    · simp [entryOf?, hfirst entry hmem, ih hrest hmem]

theorem valueOf?_of_mem [BEq κ] [ReflBEq κ] {entry : κ × β} {map : List (κ × β)}
    (h : DistinctKeys map) (hmem : entry ∈ map) : valueOf? entry.1 map = some entry.2 := by
  rw [valueOf?_eq_map_entryOf?, entryOf?_of_mem h hmem]
  rfl

theorem mem_of_entryOf? [BEq κ] {key : κ} {entry : κ × β} {map : List (κ × β)}
    (h : entryOf? key map = some entry) : entry ∈ map ∧ entry.1 == key := by
  induction map with
  | nil => exact nomatch h
  | cons first rest ih =>
    simp only [entryOf?] at h
    split at h
    · rename_i hkey
      cases h
      exact ⟨List.mem_cons_self, hkey⟩
    · obtain ⟨hmem, hkey⟩ := ih h
      exact ⟨List.mem_cons_of_mem _ hmem, hkey⟩

theorem mem_of_valueOf? [BEq κ] {key : κ} {value : β} {map : List (κ × β)}
    (h : valueOf? key map = some value) : ∃ entry ∈ map, entry.2 = value ∧ entry.1 == key := by
  rw [valueOf?_eq_map_entryOf?] at h
  obtain ⟨entry, hentry, rfl⟩ := Option.map_eq_some_iff.1 h
  obtain ⟨hmem, hkey⟩ := mem_of_entryOf? hentry
  exact ⟨entry, hmem, rfl, hkey⟩

/-! ## Values -/

/-- The map with a function of every value in its place. -/
def mapValues {γ : Type} (f : β → γ) (map : List (κ × β)) : List (κ × γ) :=
  map.map fun (k, v) => (k, f v)

theorem mapValues_eq_self {f : β → β} {map : List (κ × β)}
    (h : ∀ entry ∈ map, f entry.2 = entry.2) : mapValues f map = map := by
  have hid : map.map (fun (k, v) => (k, f v)) = map.map id :=
    List.map_congr_left fun entry hentry => Prod.ext rfl (h entry hentry)
  exact hid.trans (List.map_id map)

theorem mapValues_mapValues {γ δ : Type} (f : β → γ) (g : γ → δ) (map : List (κ × β)) :
    mapValues g (mapValues f map) = mapValues (fun v => g (f v)) map := List.map_map

theorem mapValues_append {γ : Type} (f : β → γ) (first second : List (κ × β)) :
    mapValues f (first ++ second) = mapValues f first ++ mapValues f second := List.map_append

theorem valueOf?_mapValues [BEq κ] {γ : Type} (f : β → γ) (key : κ) (map : List (κ × β)) :
    valueOf? key (mapValues f map) = (valueOf? key map).map f := by
  induction map with
  | nil => rfl
  | cons entry rest ih =>
    rw [mapValues, List.map_cons, valueOf?, valueOf?]
    split
    · rfl
    · exact ih

theorem upsert_mapValues [BEq κ] {γ : Type} (f : β → γ) (key : κ) (value : β)
    (map : List (κ × β)) :
    upsert key (f value) (mapValues f map) = mapValues f (upsert key value map) := by
  induction map with
  | nil => rfl
  | cons entry rest ih =>
    simp only [mapValues, List.map_cons, upsert] at ih ⊢
    split
    · rfl
    · rw [ih, List.map_cons]

private theorem foldl_upsert_mapValues [BEq κ] {γ : Type} (f : β → γ)
    (entries map : List (κ × β)) :
    (mapValues f entries).foldl (fun map (k, v) => upsert k v map) (mapValues f map)
      = mapValues f (entries.foldl (fun map (k, v) => upsert k v map) map) := by
  induction entries generalizing map with
  | nil => rfl
  | cons entry rest ih =>
    have hfirst := upsert_mapValues f entry.1 entry.2 map
    rw [List.foldl_cons, ← ih, ← hfirst]
    rfl

/-- Which keys are set where does not depend on the values. -/
theorem ofEntries_mapValues [BEq κ] {γ : Type} (f : β → γ) (entries : List (κ × β)) :
    ofEntries (mapValues f entries) = mapValues f (ofEntries entries) :=
  foldl_upsert_mapValues f entries []

section
variable [BEq κ] {P : κ → β → Prop}
  (hcongr : ∀ {key other : κ} {value : β}, key == other → P other value → P key value)
include hcongr

/-- A property of keys and values that does not tell equal keys apart is kept. -/
theorem forall_mem_upsert_of_congr {key : κ} {value : β} {map : List (κ × β)} (hvalue : P key value)
    (h : ∀ entry ∈ map, P entry.1 entry.2) :
    ∀ entry ∈ upsert key value map, P entry.1 entry.2 := by
  induction map with
  | nil =>
    intro entry hentry
    rw [List.mem_singleton.1 hentry]
    exact hvalue
  | cons first rest ih =>
    have hrest := ih fun entry hentry => h entry (List.mem_cons_of_mem _ hentry)
    intro entry hentry
    simp only [upsert] at hentry
    split at hentry
    · rename_i hkey
      rcases List.mem_cons.1 hentry with rfl | hentry
      · exact hcongr hkey hvalue
      · exact h entry (List.mem_cons_of_mem _ hentry)
    · rcases List.mem_cons.1 hentry with rfl | hentry
      · exact h _ List.mem_cons_self
      · exact hrest entry hentry

private theorem forall_mem_foldl_upsert {entries map : List (κ × β)}
    (hmap : ∀ entry ∈ map, P entry.1 entry.2) (h : ∀ entry ∈ entries, P entry.1 entry.2) :
    ∀ entry ∈ entries.foldl (fun map (k, v) => upsert k v map) map, P entry.1 entry.2 := by
  induction entries generalizing map with
  | nil => exact hmap
  | cons entry rest ih =>
    have hfirst := forall_mem_upsert_of_congr (P := P) hcongr (h entry List.mem_cons_self) hmap
    exact ih hfirst fun e he => h e (List.mem_cons_of_mem _ he)

/-- What holds of the keys and values that have been set holds of the map. -/
theorem forall_mem_ofEntries_of_congr {entries : List (κ × β)}
    (h : ∀ entry ∈ entries, P entry.1 entry.2) :
    ∀ entry ∈ ofEntries entries, P entry.1 entry.2 :=
  forall_mem_foldl_upsert (P := P) hcongr (List.forall_mem_nil _) h

end

/-- The values of a map are those that have been set. -/
theorem forall_mem_ofEntries [BEq κ] {P : β → Prop} {entries : List (κ × β)}
    (h : ∀ entry ∈ entries, P entry.2) : ∀ entry ∈ ofEntries entries, P entry.2 :=
  forall_mem_ofEntries_of_congr (P := fun _ value => P value) (fun _ hvalue => hvalue) h

end BlockTemplate
