import BlockTemplate.Proofs.Directory.File

/-!
# Places

Without links, the place that a path leads to can be told from the path alone, whatever is in the
directory, as long as it leads anywhere. So what is known about all files by their places stays
known when a file is written, moved or removed, or a folder is made: no other file turns up.

## Key results

- `place?_of_names?`: a path leads to its place, if anywhere
- `AllFiles.writeAt?`, `AllFiles.moveFile?`, `AllFiles.remove?`, `AllFiles.makeFolder?`: what the
  changes of a directory keep
-/

namespace BlockTemplate

namespace Path

/-- Follow names from a place, given backwards. Double dots lead back. -/
def climb? (back : List String) : List String → Option (List String)
  | [] => some back.reverse
  | name :: rest =>
    if name = ".." then
      match back with
      | [] => none
      | _ :: above => climb? above rest
    else climb? (name :: back) rest

/-- The place that a path leads to if all folders on the way are there: the names on the way from
    the current directory, double dots resolved. -/
def place? (p : Path) : Option (List String) := if p.isAbsolute then none else climb? [] p.names

/-- Whether a path leads to something in a folder. -/
def IsIn (folder p : Path) : Prop :=
  ∃ place name, folder.place? = some place ∧ p.place? = some (place ++ [name])

theorem climb?_cons_name {name : String} (hname : name ≠ "..") (back rest : List String) :
    climb? back (name :: rest) = climb? (name :: back) rest := by
  rw [climb?.eq_def]
  exact if_neg hname

theorem climb?_append_singleton {name : String} (hname : name ≠ "..") (back names : List String) :
    climb? back (names ++ [name]) = (climb? back names).map (· ++ [name]) := by
  induction names generalizing back with
  | nil =>
    rw [List.nil_append, climb?_cons_name hname]
    show some (name :: back).reverse = some (back.reverse ++ [name])
    rw [List.reverse_cons]
  | cons first rest ih =>
    rw [List.cons_append]
    by_cases hfirst : first = ".."
    · subst hfirst
      cases back with
      | nil => rfl
      | cons last above => exact ih above
    · rw [climb?_cons_name hfirst, climb?_cons_name hfirst, ih]

theorem place?_child {folder : Path} {place : List String} {name : String} (hname : name ≠ "..")
    (h : folder.place? = some place) : (folder.child name).place? = some (place ++ [name]) := by
  unfold place? at h ⊢
  rw [isAbsolute_child]
  split at h
  · exact nomatch h
  · rename_i hrelative
    rw [if_neg hrelative]
    show climb? [] (folder.names ++ [name]) = _
    rw [climb?_append_singleton hname, h]
    rfl

/-- A file in a folder has a place only if the folder has one. -/
theorem exists_of_place?_child {folder : Path} {place : List String} {name : String}
    (hname : name ≠ "..") (h : (folder.child name).place? = some place) :
    ∃ above, folder.place? = some above ∧ place = above ++ [name] := by
  unfold place? at h ⊢
  rw [isAbsolute_child] at h
  split at h
  · exact nomatch h
  · rename_i hrelative
    have hclimb : climb? [] (folder.names ++ [name]) = some place := h
    rw [climb?_append_singleton hname] at hclimb
    obtain ⟨above, habove, rfl⟩ := Option.map_eq_some_iff.1 hclimb
    exact ⟨above, by rw [if_neg hrelative, habove], rfl⟩

end Path

namespace Directory

variable {d d' : Directory} {p : Path} {names place : List String}

theorem climb?_of_walk? {back : List String} (h : d.walk? back names = some place) :
    Path.climb? back names = some place := by
  -- the links that the walk follows do not matter to the names, and a way up needs a name to drop
  induction names generalizing back with
  | nil => exact h
  | cons name rest ih =>
    by_cases hname : name = ".."
    · subst hname
      cases back with
      | nil =>
        rw [walk?_nil_up] at h
        exact nomatch h
      | cons last above =>
        rw [walk?_cons_up] at h
        split at h
        · exact ih h
        · exact nomatch h
    · rw [Path.climb?_cons_name hname]
      rw [walk?_cons_name hname] at h
      split at h
      · exact ih h
      · exact nomatch h

/-- A path leads to its place, if anywhere. -/
theorem place?_of_names? (h : d.names? p = some place) : p.place? = some place := by
  unfold names? at h
  unfold Path.place?
  split at h
  · exact nomatch h
  · rename_i hrelative
    rw [if_neg hrelative]
    exact climb?_of_walk? h

/-- Whether all files are as their places demand. -/
def AllFiles (P : List String → List UInt8 → Prop) (d : Directory) : Prop :=
  ∀ names content time, d.root.find? names = some (.file content time) → P names content

namespace AllFiles

variable {P : List String → List UInt8 → Prop} {content : List UInt8} {time : Int}

/-- What is read from a path is a file at its place. -/
theorem of_file? (h : AllFiles P d) (hfile : d.file? p = some (content, time)) :
    ∃ place, p.place? = some place ∧ P place content := by
  unfold file? at hfile
  split at hfile
  · rename_i hfind
    cases hfile
    obtain ⟨place, hplace, hfound⟩ := Option.bind_eq_some_iff.1 hfind
    exact ⟨place, place?_of_names? hplace, h _ _ _ hfound⟩
  · exact nomatch hfile

theorem put? (h : AllFiles P d) {entry : Option Entry} {root : Folder}
    (hput : d.root.put? entry names = some root) (hbare : ∀ e ∈ entry, e.IsBare)
    (hentry : ∀ content time, entry = some (.file content time) → P names content) (clock : Int) :
    AllFiles P ⟨root, clock⟩ := by
  intro seen content time hfile
  obtain hold | ⟨rfl, hnew⟩ := Folder.find?_of_find?_put? hput hbare hfile
  · exact h _ _ _ hold
  · exact hentry _ _ hnew

theorem writeAt? (h : AllFiles P d) (hwrite : d.writeAt? p content time = some d')
    (hfile : ∀ place, p.place? = some place → P place content) : AllFiles P d' := by
  obtain ⟨names, hnames, hwrite⟩ := Option.bind_eq_some_iff.1 hwrite
  split at hwrite
  · exact nomatch hwrite
  · obtain ⟨root, hroot, hwrite⟩ := Option.bind_eq_some_iff.1 hwrite
    cases hwrite
    refine h.put? hroot ?_ ?_ d.clock
    · rintro e ⟨⟩
      exact trivial
    · rintro content' time' ⟨⟩
      exact hfile names (place?_of_names? hnames)

theorem write? (h : AllFiles P d) (hwrite : d.write? p content = some d')
    (hfile : ∀ place, p.place? = some place → P place content) : AllFiles P d' := by
  obtain ⟨written, hwritten, rfl⟩ := Option.map_eq_some_iff.1 hwrite
  have hall : AllFiles P written := h.writeAt? hwritten hfile
  exact hall

theorem removed (h : AllFiles P d) {root : Folder} (hput : d.root.put? none names = some root)
    (clock : Int) : AllFiles P ⟨root, clock⟩ :=
  h.put? hput (fun _ he => absurd he (Option.not_mem_none _)) (fun _ _ he => nomatch he) clock

theorem remove? (h : AllFiles P d) (hremove : d.remove? p = some d') : AllFiles P d' := by
  obtain ⟨names, -, hremove⟩ := Option.bind_eq_some_iff.1 hremove
  obtain ⟨root, hroot, hremove⟩ := Option.bind_eq_some_iff.1 hremove
  cases hremove
  exact h.removed hroot d.clock

theorem moveFile? {target : Path} (h : AllFiles P d) (hmove : d.moveFile? p target = some d')
    (hfile : ∀ content time place, d.file? p = some (content, time) → target.place? = some place →
      P place content) : AllFiles P d' := by
  obtain ⟨⟨content, time⟩, hsource, hmove⟩ := Option.bind_eq_some_iff.1 hmove
  obtain ⟨names, -, hmove⟩ := Option.bind_eq_some_iff.1 hmove
  obtain ⟨moved, hmoved, hmove⟩ := Option.bind_eq_some_iff.1 hmove
  obtain ⟨root, hroot, hmove⟩ := Option.bind_eq_some_iff.1 hmove
  cases hmove
  have hwritten := h.writeAt? hmoved fun place => hfile content time place hsource
  exact hwritten.removed hroot moved.clock

theorem createFolders? (h : AllFiles P d) {back : List String}
    (hmake : d.createFolders? back names = some d') : AllFiles P d' := by
  induction names generalizing d back with
  | nil =>
    cases hmake
    exact h
  | cons name rest ih =>
    rw [Directory.createFolders?.eq_def] at hmake
    dsimp only at hmake
    split at hmake
    · -- a step up leaves the directory as it is
      split at hmake
      · exact nomatch hmake
      · exact ih h hmake
    · split at hmake
      · exact ih h hmake
      · exact nomatch hmake
      · split at hmake
        · split at hmake
          · rename_i root hroot
            refine ih (h.put? hroot ?_ ?_ d.clock) hmake
            · rintro e ⟨⟩
              rfl
            · exact fun _ _ he => nomatch he
          · exact nomatch hmake
        · exact nomatch hmake

theorem makeFolder? (h : AllFiles P d) (hmake : d.makeFolder? p = some d') : AllFiles P d' := by
  unfold Directory.makeFolder? at hmake
  split at hmake
  · exact nomatch hmake
  · exact h.createFolders? hmake

end AllFiles

end Directory

end BlockTemplate
