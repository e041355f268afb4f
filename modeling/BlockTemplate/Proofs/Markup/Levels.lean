import BlockTemplate.Proofs.Markup.Closed

/-!
# Levels of nesting

The search for the end of a construct counts the levels that are open. It passes over a text in
which it does not end, and what it has counted behind the text depends only on the markers in it.
A text that leaves all levels as they are can be the body of a construct.

## Key results

- `closing?_of_depthAfter`, `branchEnds_of_depthAfter`: a search passes over such a text, and ends
  at the marker behind it
- `depthAfter_of_closing?`, `depthAfter_of_ifEnds`: the bodies of a construct are such texts
- `opener_cases`: which markers open a construct
- `lacks_opener_congr`: whether a text has a construct that starts in it depends on the markers
  behind the text only
-/

namespace BlockTemplate

/-- The levels that are open behind a marker, unless the search ends at it. -/
def Turn.next : Nat → Turn → Option Nat
  | depth, .opens => some (depth + 1)
  | 0, .closes => none
  | depth + 1, .closes => some depth

/-- The levels that are open behind a marker, unless the search ends or a branch does. -/
def BranchTurn.next : Nat → BranchTurn → Option Nat
  | depth, .opens => some (depth + 1)
  | 0, .separates => none
  | depth + 1, .separates => some (depth + 1)
  | 0, .closes => none
  | depth + 1, .closes => some depth

/-- The levels that are open behind some markers, unless one of them has no next level. -/
def depthAfter {ι : Type} (next : Nat → ι → Option Nat) (depth : Nat) (items : List ι) :
    Option Nat :=
  items.foldlM next depth

section
variable {ι : Type} {next : Nat → ι → Option Nat} {depth depth' : Nat}

theorem depthAfter_cons (item : ι) (items : List ι) :
    depthAfter next depth (item :: items)
      = (next depth item).bind (depthAfter next · items) := by
  rw [depthAfter, List.foldlM_cons]
  rfl

theorem depthAfter_append (items more : List ι) :
    depthAfter next depth (items ++ more)
      = (depthAfter next depth items).bind (depthAfter next · more) := by
  rw [depthAfter, List.foldlM_append]
  rfl

/-! ## Searches as scans -/

variable {ρ : Type}

/-- A scan passes over what has a next level. -/
theorem scan_append_of_depthAfter (scan : Nat → List (Found ι) → ρ)
    (hnext : ∀ {depth depth' found rest}, next depth found.item = some depth' →
      scan depth (found :: rest) = scan depth' rest)
    {founds : List (Found ι)}
    (h : depthAfter next depth (founds.map Found.item) = some depth') (more : List (Found ι)) :
    scan depth (founds ++ more) = scan depth' more := by
  induction founds generalizing depth with
  | nil =>
    cases h
    rfl
  | cons found rest ih =>
    rw [List.map_cons, depthAfter_cons] at h
    obtain ⟨inner, hinner, h⟩ := Option.bind_eq_some_iff.1 h
    rw [List.cons_append, hnext hinner, ih h]

/-- If none of some markers is among those that the result of a scan is about, then the scan passes
    over them. -/
theorem exists_depthAfter_of_scan (scan : Nat → List (Found ι) → ρ)
    (hnext : ∀ {depth depth' found rest}, next depth found.item = some depth' →
      scan depth (found :: rest) = scan depth' rest)
    {result : ρ} {IsAbout : Found ι → Prop}
    (hend : ∀ {depth found rest}, next depth found.item = none →
      scan depth (found :: rest) = result → IsAbout found)
    {founds more : List (Found ι)} (hnot : ∀ found ∈ founds, ¬ IsAbout found)
    (h : scan depth (founds ++ more) = result) :
    ∃ depth', depthAfter next depth (founds.map Found.item) = some depth'
      ∧ scan depth' more = result := by
  induction founds generalizing depth with
  | nil => exact ⟨depth, rfl, h⟩
  | cons found rest ih =>
    rw [List.cons_append] at h
    cases hitem : next depth found.item with
    | none => exact absurd (hend hitem h) (hnot found List.mem_cons_self)
    | some inner =>
      rw [hnext hitem] at h
      obtain ⟨depth', hdepth, h⟩ := ih (fun f hf => hnot f (List.mem_cons_of_mem _ hf)) h
      exact ⟨depth', by rw [List.map_cons, depthAfter_cons, hitem]; exact hdepth, h⟩

end

theorem closing?_cons_of_next {depth depth' : Nat} {found : Found Turn} {rest : List (Found Turn)}
    (h : Turn.next depth found.item = some depth') :
    closing? depth (found :: rest) = closing? depth' rest := by
  obtain ⟨start, stop, item⟩ := found
  cases item with
  | opens =>
    cases h
    rfl
  | closes =>
    cases depth with
    | zero => exact nomatch h
    | succ depth =>
      cases h
      rfl

theorem closing?_cons_of_next_none {depth : Nat} {found : Found Turn} {rest : List (Found Turn)}
    (h : Turn.next depth found.item = none) : closing? depth (found :: rest) = some found := by
  obtain ⟨start, stop, item⟩ := found
  cases item with
  | opens => exact nomatch h
  | closes =>
    cases depth with
    | zero => rfl
    | succ depth => exact nomatch h

/-- Whether a search ends depends on the markers only. -/
theorem isSome_closing? (depth : Nat) (founds : List (Found Turn)) :
    (closing? depth founds).isSome
      = (depthAfter Turn.next depth (founds.map Found.item)).isNone := by
  induction founds generalizing depth with
  | nil => rfl
  | cons found rest ih =>
    rw [List.map_cons, depthAfter_cons]
    cases hitem : Turn.next depth found.item with
    | none =>
      rw [closing?_cons_of_next_none hitem]
      rfl
    | some depth' =>
      rw [closing?_cons_of_next hitem, ih]
      rfl

section
variable {depth depth' : Nat} {separator : Option (Found BranchTurn)} {found : Found BranchTurn}
  {rest : List (Found BranchTurn)}
  {ends : Option (Found BranchTurn) × Found BranchTurn}

theorem branchEnds_cons_of_next (h : BranchTurn.next depth found.item = some depth') :
    branchEnds depth separator (found :: rest) = branchEnds depth' separator rest := by
  obtain ⟨start, stop, item⟩ := found
  cases item with
  | opens =>
    cases h
    rfl
  | separates =>
    cases depth with
    | zero => exact nomatch h
    | succ depth =>
      cases h
      rfl
  | closes =>
    cases depth with
    | zero => exact nomatch h
    | succ depth =>
      cases h
      rfl

/-- A separator that has been found is kept. -/
theorem separator_of_branchEnds {other : Found BranchTurn}
    (h : branchEnds depth (some other) rest = .ok ends) : ends.1 = some other := by
  induction rest generalizing depth with
  | nil => exact nomatch h
  | cons found rest ih =>
    -- a second separator on the outer level is an error, so that the first one stays
    cases hitem : BranchTurn.next depth found.item with
    | some depth' => exact ih (branchEnds_cons_of_next hitem ▸ h)
    | none =>
      obtain ⟨start, stop, item⟩ := found
      cases item with
      | opens => exact nomatch hitem
      | separates =>
        cases depth with
        | zero => exact nomatch h
        | succ depth => exact nomatch hitem
      | closes =>
        cases depth with
        | zero =>
          cases h
          rfl
        | succ depth => exact nomatch hitem

/-- Where there is no next level, a branch ends. -/
theorem eq_or_mem_of_branchEnds (hitem : BranchTurn.next depth found.item = none)
    (h : branchEnds depth separator (found :: rest) = .ok ends) :
    found = ends.2 ∨ found ∈ ends.1 := by
  obtain ⟨start, stop, item⟩ := found
  cases item with
  | opens => cases hitem
  | separates =>
    cases depth with
    | zero =>
      simp only [branchEnds] at h
      split at h
      · cases h
      · exact .inr (separator_of_branchEnds h)
    | succ depth => cases hitem
  | closes =>
    cases depth with
    | zero =>
      cases h
      exact .inl rfl
    | succ depth => cases hitem

end

/-! ## Searches pass over bodies -/

section
variable {s rest t : List Char} {m : Marker} {pos : Nat}

/-- A search passes over a text that leaves the levels as they are, and ends at the marker behind
    it. -/
theorem closing?_of_depthAfter {f : Marker → Option Turn} (hs : closesComments s)
    (hlevel : depthAfter Turn.next 0 (itemsIn f s) = some 0) (ht : IsComment t m)
    (hm : f m = some .closes) (pos : Nat) (rest : List Char) :
    closing? 0 (findAll (markerAs f) 0 pos (s ++ (t ++ rest)))
      = some ⟨pos + s.length, pos + s.length + t.length, .closes⟩ := by
  rw [← map_item_findAll_markerAs f pos] at hlevel
  rw [findAll_append f hs (ht.staysApart rest) (Nat.zero_le _),
    scan_append_of_depthAfter closing? closing?_cons_of_next hlevel, ht.findAll_append, hm]
  rfl

variable {separator : Option (Found BranchTurn)}

theorem branchEnds_append_of_depthAfter (hs : closesComments s)
    (hlevel : depthAfter BranchTurn.next 0 (itemsIn turnOfBranch s) = some 0) (ht : IsComment t m)
    (pos : Nat) (rest : List Char) :
    branchEnds 0 separator (findAll (markerAs turnOfBranch) 0 pos (s ++ (t ++ rest)))
      = branchEnds 0 separator (((turnOfBranch m).map
          (⟨pos + s.length, pos + s.length + t.length, ·⟩)).toList
        ++ findAll (markerAs turnOfBranch) 0 (pos + s.length + t.length) rest) := by
  rw [← map_item_findAll_markerAs turnOfBranch pos] at hlevel
  rw [findAll_append turnOfBranch hs (ht.staysApart rest) (Nat.zero_le _),
    scan_append_of_depthAfter (branchEnds · separator) branchEnds_cons_of_next hlevel,
    ht.findAll_append]

/-- The end of a conditional without a separator. -/
theorem ifEnds_of_depthAfter (hs : closesComments s)
    (hlevel : depthAfter BranchTurn.next 0 (itemsIn turnOfBranch s) = some 0)
    (ht : IsComment t .ifEnd) (pos : Nat) (rest : List Char) :
    ifEnds pos (s ++ (t ++ rest))
      = .ok (none, ⟨pos + s.length, pos + s.length + t.length, .closes⟩) := by
  rw [ifEnds, branchTurn?_eq_markerAs, branchEnds_append_of_depthAfter hs hlevel ht]
  rfl

/-- The separator and the end of a conditional with one. -/
theorem ifEnds_of_depthAfter_of_separator {s' t' : List Char} (hs : closesComments s)
    (hlevel : depthAfter BranchTurn.next 0 (itemsIn turnOfBranch s) = some 0)
    (ht : IsComment t .ifElse) (hs' : closesComments s')
    (hlevel' : depthAfter BranchTurn.next 0 (itemsIn turnOfBranch s') = some 0)
    (ht' : IsComment t' .ifEnd) (pos : Nat) (rest : List Char) :
    let start := pos + s.length
    let stop := start + t.length + s'.length
    ifEnds pos (s ++ (t ++ (s' ++ (t' ++ rest))))
      = .ok (some ⟨start, start + t.length, .separates⟩, ⟨stop, stop + t'.length, .closes⟩) := by
  intro start stop
  rw [ifEnds, branchTurn?_eq_markerAs, branchEnds_append_of_depthAfter hs hlevel ht]
  exact branchEnds_append_of_depthAfter hs' hlevel' ht' (start + t.length) rest

/-! ## Bodies leave the levels as they are -/

/-- A find at the start of a text is the first one. -/
theorem findAll_eq_cons {α : Type} {f : Marker → Option α} {found : Found α}
    (h : found ∈ findAll (markerAs f) 0 pos s) (hstart : found.start = pos) :
    ∃ more, findAll (markerAs f) 0 pos s = found :: more ∧ found ∉ more := by
  have hpairwise : (findAll (markerAs f) 0 pos s).Pairwise fun a b => a.stop ≤ b.start :=
    pairwise_findAll (fits_markerAs f)
  have hbounds {other : Found α} (hother : other ∈ findAll (markerAs f) 0 pos s) :=
    findAll_bounds (fits_markerAs f) hother
  generalize findAll (markerAs f) 0 pos s = founds at h hpairwise hbounds
  cases founds with
  | nil => exact nomatch h
  | cons first more =>
    have hbehind := (List.pairwise_cons.1 hpairwise).1
    have hfirst := hbounds List.mem_cons_self
    -- what stands behind another find does not stand at the start
    have hnot : found ∉ more := fun hmem => by
      have := hbehind found hmem
      omega
    obtain rfl := (List.mem_cons.1 h).resolve_right hnot
    exact ⟨more, rfl, hnot⟩

/-- The finds in a text start before its end. -/
theorem not_mem_findAll_of_le {α : Type} {f : Marker → Option α} {found : Found α}
    (hstart : pos + s.length ≤ found.start) : found ∉ findAll (markerAs f) 0 pos s := by
  intro hmem
  have := findAll_bounds (fits_markerAs f) hmem
  omega

/-- What a search for the end passes over leaves the levels as they are. -/
theorem depthAfter_of_closing? {f : Marker → Option Turn} {close : Found Turn}
    (hs : closesComments s) (hrest : StaysApart rest)
    (h : closing? 0 (findAll (markerAs f) 0 pos (s ++ rest)) = some close)
    (hstart : close.start = pos + s.length) :
    depthAfter Turn.next 0 (itemsIn f s) = some 0 := by
  rw [findAll_append f hs hrest (Nat.zero_le _)] at h
  have hend {depth : Nat} {found : Found Turn} {founds : List (Found Turn)}
      (hitem : Turn.next depth found.item = none)
      (h : closing? depth (found :: founds) = some close) : found = close := by
    rw [closing?_cons_of_next_none hitem] at h
    exact Option.some.inj h
  obtain ⟨depth, hdepth, h⟩ := exists_depthAfter_of_scan closing? closing?_cons_of_next hend
    (fun found hfound heq => not_mem_findAll_of_le (Nat.le_of_eq hstart.symm) (heq ▸ hfound)) h
  rw [map_item_findAll_markerAs] at hdepth
  obtain ⟨more, hmore, hnot⟩ := findAll_eq_cons (mem_of_closing? h) hstart
  rw [hmore] at h
  -- the search ends at the first marker behind the text, so that no level is open there
  cases depth with
  | zero => exact hdepth
  | succ depth =>
    have hnext : Turn.next (depth + 1) close.item = some depth := by
      rw [item_of_closing? h]
      rfl
    rw [closing?_cons_of_next hnext] at h
    exact absurd (mem_of_closing? h) hnot

variable {ends : Option (Found BranchTurn) × Found BranchTurn}

/-- A search goes over the text before a place at which it finds something. -/
theorem exists_depthAfter_of_branchEnds (hs : closesComments s) (hrest : StaysApart rest)
    (h : branchEnds 0 separator (findAll (markerAs turnOfBranch) 0 pos (s ++ rest)) = .ok ends)
    (hclose : pos + s.length ≤ ends.2.start)
    (hseparator : ∀ found ∈ ends.1, found ∉ findAll (markerAs turnOfBranch) 0 pos s) :
    ∃ depth, depthAfter BranchTurn.next 0 (itemsIn turnOfBranch s) = some depth
      ∧ branchEnds depth separator (findAll (markerAs turnOfBranch) 0 (pos + s.length) rest)
        = .ok ends := by
  rw [findAll_append turnOfBranch hs hrest (Nat.zero_le _)] at h
  obtain ⟨depth, hdepth, h⟩ := exists_depthAfter_of_scan (branchEnds · separator)
    branchEnds_cons_of_next eq_or_mem_of_branchEnds (fun found hfound habout => by
      rcases habout with rfl | habout
      · exact not_mem_findAll_of_le hclose hfound
      · exact hseparator found habout hfound) h
  rw [map_item_findAll_markerAs] at hdepth
  exact ⟨depth, hdepth, h⟩

/-- At its end marker a conditional has no level open. -/
theorem eq_zero_of_branchEnds {depth : Nat} {close : Found BranchTurn}
    {separator' : Option (Found BranchTurn)}
    (hseparator : ∀ found ∈ separator, found.item = .separates)
    (h : branchEnds depth separator (findAll (markerAs turnOfBranch) 0 pos s)
      = .ok (separator', close)) (hstart : close.start = pos) : depth = 0 := by
  obtain ⟨more, hmore, hnot⟩ := findAll_eq_cons (mem_of_branchEnds h).1 hstart
  have hitem : close.item = .closes := (item_of_branchEnds hseparator h).1
  rw [hmore] at h
  cases depth with
  | zero => rfl
  | succ depth =>
    have hnext : BranchTurn.next (depth + 1) close.item = some depth := by
      rw [hitem]
      rfl
    rw [branchEnds_cons_of_next hnext] at h
    exact absurd (mem_of_branchEnds h).1 hnot

/-- The first branch of a conditional without a separator. -/
theorem depthAfter_of_ifEnds {close : Found BranchTurn} (hs : closesComments s)
    (hrest : StaysApart rest) (h : ifEnds pos (s ++ rest) = .ok (none, close))
    (hstart : close.start = pos + s.length) :
    depthAfter BranchTurn.next 0 (itemsIn turnOfBranch s) = some 0 := by
  rw [ifEnds, branchTurn?_eq_markerAs] at h
  obtain ⟨depth, hdepth, h⟩ := exists_depthAfter_of_branchEnds hs hrest h
    (Nat.le_of_eq hstart.symm) (fun found hfound => absurd hfound (Option.not_mem_none _))
  rw [hdepth, eq_zero_of_branchEnds (fun found hfound => absurd hfound (Option.not_mem_none _)) h
    hstart]

/-- The branches of a conditional with a separator. -/
theorem depthAfter_of_ifEnds_of_separator {s' : List Char} {found close : Found BranchTurn}
    (hs : closesComments s) (ht : IsComment t .ifElse) (hs' : closesComments s')
    (hrest : StaysApart rest)
    (h : ifEnds pos (s ++ (t ++ (s' ++ rest))) = .ok (some found, close))
    (hfound : found.start = pos + s.length)
    (hclose : close.start = pos + s.length + t.length + s'.length) :
    depthAfter BranchTurn.next 0 (itemsIn turnOfBranch s) = some 0
      ∧ depthAfter BranchTurn.next 0 (itemsIn turnOfBranch s') = some 0 := by
  have hpositive : 0 < t.length := by
    obtain ⟨inner, rfl⟩ := ht.exists_eq_cons
    exact Nat.succ_pos _
  rw [ifEnds, branchTurn?_eq_markerAs] at h
  obtain ⟨depth, hdepth, h⟩ := exists_depthAfter_of_branchEnds hs (ht.staysApart _) h
    (by dsimp only; omega) (fun other hother => by
      cases hother
      exact not_mem_findAll_of_le (Nat.le_of_eq hfound.symm))
  rw [ht.findAll_append] at h
  -- the separator counts, for otherwise it would not have been found
  have hzero : depth = 0 := by
    cases depth with
    | zero => rfl
    | succ depth =>
      have hnext : BranchTurn.next (depth + 1) .separates = some (depth + 1) := rfl
      rw [turnOfBranch, Option.map_some, Option.toList_some, List.singleton_append,
        branchEnds_cons_of_next hnext] at h
      have hmem := ((mem_of_branchEnds h).2 found rfl).resolve_left (Option.not_mem_none _)
      have := findAll_bounds (fits_markerAs turnOfBranch) hmem
      omega
  subst hzero
  refine ⟨hdepth, ?_⟩
  simp only [turnOfBranch, Option.map_some, Option.toList_some, List.singleton_append, branchEnds,
    Option.isSome_none, Bool.false_eq_true, if_false] at h
  obtain ⟨depth, hdepth', h⟩ := exists_depthAfter_of_branchEnds hs' hrest h
    (by dsimp only; omega) (fun other hother hmem => by
      cases hother
      have := findAll_bounds (fits_markerAs turnOfBranch) hmem
      omega)
  rw [hdepth', eq_zero_of_branchEnds (fun other hother => by cases hother; rfl) h hclose]

end

/-! ## Bodies -/

/-- The text between two markers: it closes its comments, and no search from outside ends in it. -/
structure IsBody {ι : Type} (next : Nat → ι → Option Nat) (f : Marker → Option ι)
    (s : List Char) : Prop where
  closes : closesComments s
  level : depthAfter next 0 (itemsIn f s) = some 0

/-- The line break behind the marker in front of a body belongs to what is searched. -/
theorem IsBody.newline {ι : Type} {next : Nat → ι → Option Nat} {f : Marker → Option ι}
    {s : List Char} (h : IsBody next f s) : IsBody next f ('\n' :: s) where
  closes := quiet_newline.closesComments_append h.closes
  level := by
    rw [← List.singleton_append, quiet_newline.itemsIn_append]
    exact h.level

/-! ## Texts without constructs -/

/-- Whether nothing is recognized where a text starts, or anywhere in it. -/
def Lacks {α : Type} (recognize : List Char → Option (α × Nat)) (rest : List Char) :
    List Char → Prop
  | [] => True
  | c :: s => recognize (c :: s ++ rest) = none ∧ Lacks recognize rest s

section
variable {α : Type} {recognize : List Char → Option (α × Nat)} {s t rest : List Char}

theorem find?_append_of_lacks (h : Lacks recognize rest s) (pos : Nat) :
    find? recognize pos (s ++ rest) = find? recognize (pos + s.length) rest := by
  induction s generalizing pos with
  | nil => rfl
  | cons c s ih =>
    have hplace : pos + 1 + s.length = pos + (c :: s).length := by
      rw [List.length_cons]
      omega
    rw [List.cons_append, find?, ← List.cons_append, h.1]
    dsimp only
    rw [ih h.2, hplace]

/-- Before the first find nothing is recognized. -/
theorem lacks_of_find? (pos : Nat) (h : ∀ found ∈ find? recognize pos (s ++ rest),
    pos + s.length ≤ found.start) : Lacks recognize rest s := by
  induction s generalizing pos with
  | nil => trivial
  | cons c s ih =>
    rw [List.cons_append, find?, ← List.cons_append] at h
    cases hhere : recognize (c :: s ++ rest) with
    | some found =>
      obtain ⟨item, size⟩ := found
      rw [hhere] at h
      have := h _ rfl
      rw [List.length_cons] at this
      dsimp only at this
      omega
    | none =>
      rw [hhere] at h
      refine ⟨hhere, ih (pos + 1) fun found hfound => ?_⟩
      have := h found hfound
      rw [List.length_cons] at this
      omega

theorem Lacks.of_append (h : Lacks recognize rest (s ++ t)) : Lacks recognize (t ++ rest) s := by
  induction s with
  | nil => trivial
  | cons c s ih =>
    refine ⟨?_, ih h.2⟩
    have hhere : recognize (c :: (s ++ t) ++ rest) = none := h.1
    rwa [List.cons_append, List.append_assoc, ← List.cons_append] at hhere

theorem Lacks.append_of_quiet (hr : NeedsComment recognize) (hs : Quiet s)
    (h : Lacks recognize rest t) : Lacks recognize rest (s ++ t) := by
  induction s with
  | nil => exact h
  | cons c s ih =>
    refine ⟨hr ?_, ih hs.2⟩
    have hhere := hs.1 (t ++ rest)
    rwa [← List.append_assoc] at hhere

/-- Whether a block is closed depends on the markers behind its beginning only. -/
theorem isSome_blockEnd? (name : List Char) (pos : Nat) (s : List Char) :
    (blockEnd? name pos s).isSome
      = (depthAfter Turn.next 0 (itemsIn (turnOfBlock name) s)).isNone := by
  rw [blockEnd?, isSome_closing?, blockTurn?_eq_markerAs, map_item_findAll_markerAs]

/-- A marker that opens a construct begins a loop, a conditional, or a block that is closed. -/
theorem opener_cases {code : List Char} {pos : Nat} {opener : Found Marker}
    (h : find? opener? pos (code.drop pos) = some opener) :
    (∃ header, opener.item = .loopBegin header) ∨ (∃ condition, opener.item = .ifBegin condition)
      ∨ ∃ name close, opener.item = .blockBegin name
        ∧ blockEnd? name opener.stop (code.drop opener.stop) = some close := by
  have hfind := find?_isFind h
  have hopens := hfind.recognized
  have hmarker := marker?_of_opener? hopens
  cases hitem : opener.item with
  | loopBegin header => exact .inl ⟨header, rfl⟩
  | ifBegin condition => exact .inr (.inl ⟨condition, rfl⟩)
  | blockBegin name =>
    rw [hitem] at hmarker hopens
    simp only [opener?, hmarker] at hopens
    split at hopens
    · rename_i hsome
      have hplace : pos + (opener.start - pos) + (opener.stop - opener.start) = opener.stop := by
        rw [Nat.add_sub_cancel' hfind.pos_le, Nat.add_sub_cancel' hfind.start_le]
      -- whether the block is closed does not depend on where its text is said to start
      rw [List.drop_drop, List.drop_drop, ← Nat.add_assoc, hplace, isSome_blockEnd?,
        ← isSome_blockEnd? name opener.stop] at hsome
      obtain ⟨close, hclose⟩ := Option.isSome_iff_exists.1 hsome
      exact .inr (.inr ⟨name, close, rfl, hclose⟩)
    · cases hopens
  | _ =>
    rw [hitem] at hmarker hopens
    simp only [opener?, hmarker] at hopens
    cases hopens

/-- With other text behind it, but with the same markers there, a text still has no construct that
    starts in it. -/
theorem lacks_opener_congr {rest' : List Char} (hs : closesComments s) (hrest : StaysApart rest)
    (hrest' : StaysApart rest')
    (hitems : ∀ name, itemsIn (turnOfBlock name) rest' = itemsIn (turnOfBlock name) rest)
    (h : Lacks opener? rest s) : Lacks opener? rest' s := by
  induction s with
  | nil => trivial
  | cons c s ih =>
    refine ⟨?_, ih (closesComments_cons.1 hs).2 h.2⟩
    have hhere := h.1
    have hne : c :: s ≠ [] := List.cons_ne_nil c s
    rw [opener?, marker?_append_of_closesComments hs hne hrest] at hhere
    rw [opener?, marker?_append_of_closesComments hs hne hrest']
    cases hm : marker? (c :: s) with
    | none => rfl
    | some found =>
      obtain ⟨m, size⟩ := found
      rw [hm] at hhere
      cases m with
      | blockBegin name =>
        -- the beginning lies in the text, and what is found behind it is the same
        have hle := (size_of_marker? hm).2
        have hsplit := List.take_append_drop size (c :: s)
        have hclosed : closesComments ((c :: s).drop size) :=
          closesComments_of_append (hsplit.symm ▸ hs)
        simp only [List.drop_append_of_le_length hle, isSome_blockEnd?,
          itemsIn_append _ hclosed hrest, itemsIn_append _ hclosed hrest', hitems] at hhere ⊢
        exact hhere
      | loopBegin header => cases hhere
      | ifBegin condition => cases hhere
      | _ => rfl

end

end BlockTemplate
