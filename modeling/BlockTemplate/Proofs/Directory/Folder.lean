import BlockTemplate.Directory.Basic

/-!
# Entries of folders

Putting a file into a folder, or removing one, changes nothing but that entry. What has been a
folder still is one, so that paths lead where they have led before.

## Key results

- `find?_put?_file`: the file is found where it has been put
- `find?_put?_sibling`: the other entries beside it stay
- `find?_of_find?_put?`: no other file turns up
- `isFolderAt_put?`: the folders stay
-/

namespace BlockTemplate

/-- Whether an entry is a folder. -/
def Entry.isFolder : Entry → Bool
  | .file .. => false
  | .folder _ => true

/-- Whether no file is inside an entry. -/
def Entry.IsBare : Entry → Prop
  | .file .. => True
  | .folder entries => entries = []

namespace Folder

/-- Whether there is a folder at the end of a row of names. -/
def isFolderAt (entries : Folder) (names : List String) : Bool :=
  (entries.find? names).any Entry.isFolder

/-- An entry that has been put beside others. -/
def withEntry (entries : Folder) (name : String) : Option Entry → Folder
  | some entry => upsert name entry entries
  | none => removeKey name entries

variable {entries changed : Folder} {entry : Option Entry} {name other : String}
  {names : List String}

theorem put?_singleton (entries : Folder) (entry : Option Entry) (name : String) :
    entries.put? entry [name] = some (entries.withEntry name entry) := by
  cases entry <;> rfl

/-- Putting an entry further down changes the folder on the way. -/
theorem exists_of_put?_cons (hnames : names ≠ [])
    (h : entries.put? entry (name :: names) = some changed) :
    ∃ inner innerChanged, valueOf? name entries = some (.folder inner)
      ∧ put? inner entry names = some innerChanged
      ∧ changed = upsert name (.folder innerChanged) entries := by
  cases names with
  | nil => exact absurd rfl hnames
  | cons next rest =>
    rw [put?] at h
    · split at h
      · rename_i inner hinner
        obtain ⟨innerChanged, hput, rfl⟩ := Option.map_eq_some_iff.1 h
        exact ⟨inner, innerChanged, hinner, hput, rfl⟩
      · exact nomatch h
    · exact nofun

theorem valueOf?_withEntry_self (entries : Folder) (name : String) (entry : Option Entry) :
    valueOf? name (entries.withEntry name entry) = entry := by
  cases entry with
  | none => exact valueOf?_removeKey_self name entries
  | some entry => exact valueOf?_upsert_self name entry entries

theorem valueOf?_withEntry_of_ne (h : name ≠ other) (entries : Folder) (entry : Option Entry) :
    valueOf? other (entries.withEntry name entry) = valueOf? other entries := by
  have hbeq : (name == other) = false := beq_eq_false_iff_ne.2 h
  cases entry with
  | none => exact valueOf?_removeKey_of_ne hbeq entries
  | some entry => exact valueOf?_upsert_of_ne hbeq entry entries

/-! ## What is found -/

theorem find?_of_folder {inner : Folder} (h : valueOf? name entries = some (.folder inner))
    (names : List String) : entries.find? (name :: names) = find? inner names := by
  rw [find?, h]

theorem find?_singleton (entries : Folder) (name : String) :
    entries.find? [name] = valueOf? name entries := by
  rw [find?]
  cases valueOf? name entries with
  | none => rfl
  | some entry => cases entry <;> rfl

/-- What is found behind a name depends on the entry of the name only. -/
theorem find?_congr (h : valueOf? name changed = valueOf? name entries) (names : List String) :
    changed.find? (name :: names) = entries.find? (name :: names) := by
  rw [find?, find?, h]

/-- A file is found where it has been put. -/
theorem find?_put?_file {content : List UInt8} {time : Int}
    (h : entries.put? (some (.file content time)) names = some changed) :
    changed.find? names = some (.file content time) := by
  induction names generalizing entries changed with
  | nil => exact nomatch h
  | cons name names ih =>
    -- the last name is put into this folder itself, and the others go on into a folder in it
    by_cases hnames : names = []
    · subst hnames
      rw [put?_singleton] at h
      cases h
      rw [find?_singleton, valueOf?_withEntry_self]
    · obtain ⟨inner, innerChanged, -, hput, rfl⟩ := exists_of_put?_cons hnames h
      rw [find?_of_folder (valueOf?_upsert_self ..)]
      exact ih hput

/-- The other entries of the folder stay. -/
theorem find?_put?_sibling {place : List String}
    (h : entries.put? entry (place ++ [name]) = some changed) (hne : name ≠ other) :
    changed.find? (place ++ [other]) = entries.find? (place ++ [other]) := by
  induction place generalizing entries changed with
  | nil =>
    rw [List.nil_append, put?_singleton] at h
    cases h
    -- the other name has the entry that it had
    exact find?_congr (valueOf?_withEntry_of_ne hne entries entry) []
  | cons first place ih =>
    have hnames : place ++ [name] ≠ [] := by simp
    obtain ⟨inner, innerChanged, hinner, hput, rfl⟩ := exists_of_put?_cons hnames h
    rw [List.cons_append, find?_of_folder (valueOf?_upsert_self ..), find?_of_folder hinner]
    exact ih hput

/-- A file that is found after an entry has been set was there before, or is the entry. -/
theorem find?_of_find?_withEntry (hbare : ∀ e ∈ entry, e.IsBare) {seen : List String}
    {content : List UInt8} {time : Int}
    (hfile : (entries.withEntry name entry).find? (other :: seen) = some (.file content time)) :
    entries.find? (other :: seen) = some (.file content time)
      ∨ other :: seen = [name] ∧ entry = some (.file content time) := by
  by_cases hother : name = other
  · subst hother
    rw [find?, valueOf?_withEntry_self] at hfile
    match entry, hbare with
    | none, _ => exact nomatch hfile
    | some (.folder inner), hbare =>
      -- nothing is in a folder that is new
      cases hbare _ rfl
      cases seen with
      | nil => exact nomatch hfile
      | cons next rest => exact nomatch hfile
    | some (.file _ _), _ =>
      cases seen with
      | nil =>
        cases hfile
        exact .inr ⟨rfl, rfl⟩
      | cons next rest => exact nomatch hfile
  · rw [find?_congr (valueOf?_withEntry_of_ne hother entries entry)] at hfile
    exact .inl hfile

/-- A file that is found after something has been put was there before, or has been put there. -/
theorem find?_of_find?_put? (h : entries.put? entry names = some changed)
    (hbare : ∀ e ∈ entry, e.IsBare) {seen : List String} {content : List UInt8} {time : Int}
    (hfile : changed.find? seen = some (.file content time)) :
    entries.find? seen = some (.file content time)
      ∨ seen = names ∧ entry = some (.file content time) := by
  induction names generalizing entries changed seen with
  | nil => exact nomatch h
  | cons name names ih =>
    cases seen with
    | nil => exact nomatch hfile
    | cons first seen =>
      by_cases hnames : names = []
      · subst hnames
        rw [put?_singleton] at h
        cases h
        exact find?_of_find?_withEntry hbare hfile
      · obtain ⟨inner, innerChanged, hinner, hput, rfl⟩ := exists_of_put?_cons hnames h
        by_cases hfirst : name = first
        · subst hfirst
          rw [find?_of_folder (valueOf?_upsert_self ..)] at hfile
          rw [find?_of_folder hinner]
          obtain hold | ⟨rfl, hnew⟩ := ih hput hfile
          · exact .inl hold
          · exact .inr ⟨rfl, hnew⟩
        · have hbeq : (name == first) = false := beq_eq_false_iff_ne.2 hfirst
          rw [find?_congr (valueOf?_upsert_of_ne hbeq _ entries)] at hfile
          exact .inl hfile

/-- Where there is no folder, none is behind either. -/
theorem isFolderAt_of_not_folder (h : (valueOf? name entries).any Entry.isFolder = false)
    (names : List String) : entries.isFolderAt (name :: names) = false := by
  rw [isFolderAt, find?]
  cases hvalue : valueOf? name entries with
  | none => rfl
  | some entry =>
    rw [hvalue] at h
    cases entry with
    | file content time =>
      dsimp only
      split <;> rfl
    | folder inner => exact nomatch h

/-- Putting what is no folder in the place of what was none leaves the folders as they are. -/
theorem isFolderAt_put? (h : entries.put? entry names = some changed)
    (hold : entries.isFolderAt names = false) (hnew : entry.any Entry.isFolder = false)
    (seen : List String) : changed.isFolderAt seen = entries.isFolderAt seen := by
  induction names generalizing entries changed seen with
  | nil => exact nomatch h
  | cons name names ih =>
    cases seen with
    | nil => rfl
    | cons first seen =>
      -- at the last name neither the old entry nor the new one is a folder; before it the folder on
      -- the way stays a folder
      by_cases hnames : names = []
      · subst hnames
        rw [put?_singleton] at h
        cases h
        by_cases hfirst : name = first
        · subst hfirst
          rw [isFolderAt, find?_singleton] at hold
          rw [isFolderAt_of_not_folder hold, isFolderAt_of_not_folder]
          rw [valueOf?_withEntry_self]
          exact hnew
        · rw [isFolderAt, find?_congr (valueOf?_withEntry_of_ne hfirst entries entry)]
          rfl
      · obtain ⟨inner, innerChanged, hinner, hput, rfl⟩ := exists_of_put?_cons hnames h
        by_cases hfirst : name = first
        · subst hfirst
          rw [isFolderAt, find?_of_folder hinner] at hold
          rw [isFolderAt, isFolderAt, find?_of_folder (valueOf?_upsert_self ..),
            find?_of_folder hinner]
          exact ih hput hold seen
        · have hbeq : (name == first) = false := beq_eq_false_iff_ne.2 hfirst
          rw [isFolderAt, find?_congr (valueOf?_upsert_of_ne hbeq _ entries)]
          rfl

end Folder

end BlockTemplate
