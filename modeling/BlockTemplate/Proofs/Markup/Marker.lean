import BlockTemplate.Markup.Marker
import BlockTemplate.Proofs.Text.Pattern

/-!
# Written markers

Markers as they are written: a comment with one blank on either side of its content. A marker that
is written so is recognized, and nothing is recognized where no comment starts.

## Key results

- `marker?_chars`: a written marker is recognized with all of its characters
- `find?_append_of_quiet`, `findAll_append_of_quiet`: searches pass over text without comments
-/

namespace BlockTemplate

/-- A name: word characters, at least one. -/
structure IsName (s : List Char) : Prop where
  nonempty : s ≠ []
  word : ∀ c ∈ s, isWord c

/-- The text of a loop header or a condition as it can stand in a marker: there is some, no blanks
    are around it, and neither the start nor the end of a comment is in it. -/
structure IsHeader (s : List Char) : Prop where
  nonempty : s ≠ []
  trimmed : trimBlank s = s
  no_start : occursIn commentStart s = false
  no_end : occursIn commentEnd s = false

namespace Marker

/-- What a marker says. -/
def content : Marker → List Char
  | blockBegin name => 'B' :: 'E' :: 'G' :: 'I' :: 'N' :: ':' :: ' ' :: name
  | blockEnd name => 'E' :: 'N' :: 'D' :: ':' :: ' ' :: name
  | loopBegin header => 'F' :: 'O' :: 'R' :: ' ' :: header
  | loopEnd => ['E', 'N', 'D', 'F', 'O', 'R']
  | ifBegin condition => 'I' :: 'F' :: ' ' :: condition
  | ifElse => ['E', 'L', 'S', 'E']
  | ifEnd => ['E', 'N', 'D', 'I', 'F']

/-- A marker as it is written. -/
def chars (m : Marker) : List Char :=
  commentStart ++ (' ' :: m.content ++ ' ' :: commentEnd)

/-- Whether the names and headers in a marker are ones. -/
def IsProper : Marker → Prop
  | blockBegin name | blockEnd name => IsName name
  | loopBegin header => IsHeader header
  | ifBegin condition => IsHeader condition
  | loopEnd | ifElse | ifEnd => True

end Marker

/-! ## Names and headers -/

theorem IsName.not_mem {s : List Char} (h : IsName s) {c : Char} (hc : isWord c = false) :
    c ∉ s := by
  intro hmem
  rw [h.word c hmem] at hc
  exact nomatch hc

theorem isName_of_all {s : List Char} (hne : s ≠ []) (h : s.all isWord = true) : IsName s :=
  ⟨hne, List.all_eq_true.1 h⟩

theorem IsName.hasNoEdges {s : List Char} (h : IsName s) : HasNoEdges isBlank s where
  head c hc := isBlank_eq_false_of_isWord (h.word c (List.mem_of_mem_head? hc))
  last c hc := isBlank_eq_false_of_isWord (h.word c (List.mem_of_mem_getLast? hc))

theorem IsHeader.hasNoEdges {s : List Char} (h : IsHeader s) : HasNoEdges isBlank s :=
  hasNoEdges_of_trimBoth_eq_self h.trimmed

/-- With a keyword before it the last character is still that of the text. -/
theorem HasNoEdges.keyword {p : Char → Bool} {s : List Char} (h : HasNoEdges p s) (hne : s ≠ [])
    (c : Char) (keyword : List Char) (hc : p c = false) : HasNoEdges p (c :: keyword ++ s) where
  head d hd := by
    cases hd
    exact hc
  last d hd := by
    rw [List.getLast?_append, List.getLast?_eq_some_getLast hne, Option.some_or] at hd
    exact h.last d (List.getLast?_eq_some_getLast hne ▸ hd)

namespace Marker

variable {m : Marker}

theorem IsProper.hasNoEdges (h : m.IsProper) : HasNoEdges isBlank m.content := by
  cases m with
  | blockBegin name =>
    exact (IsName.hasNoEdges h).keyword h.nonempty 'B' ['E', 'G', 'I', 'N', ':', ' '] (by decide)
  | blockEnd name =>
    exact (IsName.hasNoEdges h).keyword h.nonempty 'E' ['N', 'D', ':', ' '] (by decide)
  | loopBegin header =>
    exact (IsHeader.hasNoEdges h).keyword h.nonempty 'F' ['O', 'R', ' '] (by decide)
  | ifBegin condition =>
    exact (IsHeader.hasNoEdges h).keyword h.nonempty 'I' ['F', ' '] (by decide)
  | loopEnd => exact hasNoEdges_of_trimBoth_eq_self rfl
  | ifElse => exact hasNoEdges_of_trimBoth_eq_self rfl
  | ifEnd => exact hasNoEdges_of_trimBoth_eq_self rfl

theorem content_ne_nil (m : Marker) : m.content ≠ [] := by
  cases m <;> exact List.cons_ne_nil _ _

theorem IsProper.no_start (h : m.IsProper) : occursIn commentStart m.content = false := by
  cases m with
  | blockBegin name =>
    -- a name has no angle bracket, which every comment starts with
    have hname := IsName.not_mem h (c := '<') (by decide)
    exact occursIn_eq_false_of_not_mem (by simp [content, hname]) _
  | blockEnd name =>
    have hname := IsName.not_mem h (c := '<') (by decide)
    exact occursIn_eq_false_of_not_mem (by simp [content, hname]) _
  | loopBegin header =>
    have hheader := IsHeader.no_start h
    simpa [content, occursIn, startsWith, afterPattern?, commentStart] using hheader
  | ifBegin condition =>
    have hcondition := IsHeader.no_start h
    simpa [content, occursIn, startsWith, afterPattern?, commentStart] using hcondition
  | loopEnd => decide
  | ifElse => decide
  | ifEnd => decide

theorem IsProper.no_end (h : m.IsProper) : occursIn commentEnd m.content = false := by
  cases m with
  | blockBegin name =>
    -- a name has no hyphen, which every comment ends with
    have hname := IsName.not_mem h (c := '-') (by decide)
    exact occursIn_eq_false_of_not_mem (by simp [content, hname]) _
  | blockEnd name =>
    have hname := IsName.not_mem h (c := '-') (by decide)
    exact occursIn_eq_false_of_not_mem (by simp [content, hname]) _
  | loopBegin header =>
    have hheader := IsHeader.no_end h
    simpa [content, occursIn, startsWith, afterPattern?, commentEnd] using hheader
  | ifBegin condition =>
    have hcondition := IsHeader.no_end h
    simpa [content, occursIn, startsWith, afterPattern?, commentEnd] using hcondition
  | loopEnd => decide
  | ifElse => decide
  | ifEnd => decide

/-! ## Recognizing a written marker -/

theorem nameAfter?_append (keyword : List Char) {name : List Char} (h : IsName name) :
    nameAfter? keyword (keyword ++ ' ' :: name) = some name := by
  have hblank : (' ' :: name).dropWhile isBlank = name := by
    rw [List.dropWhile_cons_of_pos (by decide), dropWhile_eq_self_of_head h.hasNoEdges.head]
  -- all that follows the blank has to be the name
  have hword : name.all isWord = true := List.all_eq_true.2 h.word
  rw [nameAfter?, afterPattern?_append_self]
  simp only [Option.bind_eq_bind, Option.bind_some, hblank, hword]
  simp [h.nonempty]

theorem headerAfter?_append (keyword : List Char) {header : List Char} (h : IsHeader header) :
    headerAfter? keyword (keyword ++ ' ' :: header) = some header := by
  have hblank : (' ' :: header).dropWhile isBlank = header := by
    rw [List.dropWhile_cons_of_pos (by decide), dropWhile_eq_self_of_head h.hasNoEdges.head]
  simp [headerAfter?, hblank]

theorem ofContent?_content (h : m.IsProper) : ofContent? m.content = some m := by
  cases m with
  | blockBegin name =>
    have hname := nameAfter?_append ['B', 'E', 'G', 'I', 'N', ':'] h
    simp only [List.cons_append, List.nil_append] at hname
    simp [ofContent?, content, hname]
  | blockEnd name =>
    have hname := nameAfter?_append ['E', 'N', 'D', ':'] h
    have hbegin (s : List Char) :
        nameAfter? ['B', 'E', 'G', 'I', 'N', ':'] ('E' :: s) = none := rfl
    simp only [List.cons_append, List.nil_append] at hname
    simp [ofContent?, content, hname, hbegin]
  | loopBegin header =>
    have hheader := headerAfter?_append ['F', 'O', 'R'] h
    have hbegin (s : List Char) :
        nameAfter? ['B', 'E', 'G', 'I', 'N', ':'] ('F' :: s) = none := rfl
    -- the keywords that are tried first differ in their first letter
    have hend (s : List Char) : nameAfter? ['E', 'N', 'D', ':'] ('F' :: s) = none := rfl
    simp only [List.cons_append, List.nil_append] at hheader
    simp [ofContent?, content, hheader, hbegin, hend]
  | ifBegin condition =>
    have hcondition := headerAfter?_append ['I', 'F'] h
    have hbegin (s : List Char) :
        nameAfter? ['B', 'E', 'G', 'I', 'N', ':'] ('I' :: s) = none := rfl
    have hend (s : List Char) : nameAfter? ['E', 'N', 'D', ':'] ('I' :: s) = none := rfl
    have hloop (s : List Char) : headerAfter? ['F', 'O', 'R'] ('I' :: s) = none := rfl
    simp only [List.cons_append, List.nil_append] at hcondition
    simp [ofContent?, content, hcondition, hbegin, hend, hloop]
  | loopEnd => rfl
  | ifElse => rfl
  | ifEnd => rfl

end Marker

/-- The first occurrence of a pattern is not within a text that it does not occur in. -/
theorem splitAtPattern?_append {pattern s : List Char} (hs : occursIn pattern s = false) {d : Char}
    (hd : d ∉ pattern) (hne : pattern ≠ []) (rest : List Char) :
    splitAtPattern? pattern (s ++ d :: (pattern ++ rest)) = some (s ++ [d], rest) := by
  induction s with
  | nil =>
    -- the pattern cannot start one character early
    obtain ⟨p, pattern, rfl⟩ := List.exists_cons_of_ne_nil hne
    have hp : p ≠ d := fun heq => hd (heq ▸ List.mem_cons_self)
    simp [splitAtPattern?, afterPattern?, hp]
  | cons c s ih =>
    obtain ⟨hhere, hs⟩ := afterPattern?_eq_none_of_occursIn hs
    -- an occurrence that starts here would have to reach across the character
    have hcross := afterPattern?_append_cons hd hhere (pattern ++ rest)
    rw [List.cons_append] at hcross ⊢
    rw [splitAtPattern?, hcross, ih hs]
    rfl

/-- A marker is recognized as it is written, with all of its characters. -/
theorem marker?_chars {m : Marker} (h : m.IsProper) (rest : List Char) :
    marker? (m.chars ++ rest) = some (m, m.chars.length) := by
  have hcontent : occursIn commentEnd (' ' :: m.content) = false := by
    simpa [occursIn, startsWith, afterPattern?, commentEnd] using h.no_end
  have hsplit := splitAtPattern?_append (d := ' ') hcontent (by decide) (by decide) rest
  have hblank : ∀ c ∈ [' '], isBlank c = true := List.forall_mem_singleton.2 rfl
  have htrim : trimBlank (' ' :: m.content ++ [' ']) = m.content :=
    trimBoth_append [' '] [' '] h.hasNoEdges m.content_ne_nil hblank hblank
  have hchars : m.chars ++ rest
      = commentStart ++ (' ' :: m.content ++ ' ' :: (commentEnd ++ rest)) := by
    simp [Marker.chars]
  -- the comment is what stands between its start and the first end, blanks included
  have hcomment : comment? (m.chars ++ rest) = some (' ' :: m.content ++ [' ']) := by
    rw [hchars, comment?, afterPattern?_append_self]
    simp only [Option.bind_eq_bind, Option.bind_some, hsplit, Option.pure_def]
  have hsize : commentSize (' ' :: m.content ++ [' ']) = m.chars.length := by
    simp [commentSize, Marker.chars]
    omega
  rw [marker?, hcomment]
  simp only [Option.bind_eq_bind, Option.bind_some, htrim, Marker.ofContent?_content h,
    Option.pure_def, hsize]

/-! ## Text without comments -/

/-- No comment starts in the text, whatever follows it. -/
def Quiet : List Char → Prop
  | [] => True
  | c :: s => (∀ rest, afterPattern? commentStart (c :: s ++ rest) = none) ∧ Quiet s

theorem Quiet.append {s t : List Char} (hs : Quiet s) (ht : Quiet t) : Quiet (s ++ t) := by
  induction s with
  | nil => exact ht
  | cons c s ih =>
    refine ⟨fun rest => ?_, ih hs.2⟩
    have := hs.1 (t ++ rest)
    rwa [← List.append_assoc] at this

/-- Comments start with an angle bracket. -/
theorem quiet_of_not_mem {s : List Char} (h : '<' ∉ s) : Quiet s := by
  induction s with
  | nil => trivial
  | cons c s ih =>
    have hc : '<' ≠ c := fun heq => h (heq ▸ List.mem_cons_self)
    refine ⟨fun rest => ?_, ih fun hmem => h (List.mem_cons_of_mem _ hmem)⟩
    simp [commentStart, afterPattern?, hc]

/-- A character that is not in the start of a comment keeps the text before it apart from what
    follows. -/
theorem quiet_snoc {s : List Char} (hs : occursIn commentStart s = false) {d : Char}
    (hd : d ∉ commentStart) : Quiet (s ++ [d]) := by
  induction s with
  | nil => exact quiet_of_not_mem fun hmem => hd (List.mem_singleton.1 hmem ▸ by decide)
  | cons c s ih =>
    obtain ⟨hhere, hs⟩ := afterPattern?_eq_none_of_occursIn hs
    refine ⟨fun rest => ?_, ih hs⟩
    -- the start of a comment cannot reach across the character
    have := afterPattern?_append_cons hd hhere rest
    simpa using this

/-- Behind its first character a marker is quiet. -/
theorem Marker.IsProper.quiet_tail {m : Marker} (h : m.IsProper) : Quiet m.chars.tail := by
  have hcontent : occursIn commentStart (' ' :: m.content) = false := by
    simpa [occursIn, startsWith, afterPattern?, commentStart] using h.no_start
  -- only the first character of the marker starts a comment, and that is left out
  have hopen : Quiet ['!', '-', '-'] := quiet_of_not_mem (by decide)
  have hclose : Quiet commentEnd := quiet_of_not_mem (by decide)
  have hquiet := hopen.append ((quiet_snoc (d := ' ') hcontent (by decide)).append hclose)
  simpa [Marker.chars, commentStart] using hquiet

variable {α : Type}

/-- Whether nothing is recognized where no comment starts. -/
def NeedsComment (recognize : List Char → Option (α × Nat)) : Prop :=
  ∀ {s : List Char}, afterPattern? commentStart s = none → recognize s = none

theorem marker?_eq_none_of_no_comment {s : List Char} (h : afterPattern? commentStart s = none) :
    marker? s = none := by
  simp [marker?, comment?, h]

/-- What a function makes of the marker at the start of a text. -/
def markerAs (f : Marker → Option α) (s : List Char) : Option (α × Nat) :=
  (marker? s).bind fun (m, size) => (f m).map (·, size)

theorem needsComment_markerAs (f : Marker → Option α) : NeedsComment (markerAs f) := by
  intro s h
  simp [markerAs, marker?_eq_none_of_no_comment h]

theorem markerAs_chars {m : Marker} (hm : m.IsProper) (f : Marker → Option α) (rest : List Char) :
    markerAs f (m.chars ++ rest) = (f m).map (·, m.chars.length) := by
  simp [markerAs, marker?_chars hm]

theorem needsComment_opener? : NeedsComment opener? := by
  intro s h
  simp [opener?, marker?_eq_none_of_no_comment h]

theorem find?_append_of_quiet {recognize : List Char → Option (α × Nat)}
    (hr : NeedsComment recognize) {s : List Char} (hs : Quiet s) (pos : Nat) (rest : List Char) :
    find? recognize pos (s ++ rest) = find? recognize (pos + s.length) rest := by
  induction s generalizing pos with
  | nil => rfl
  | cons c s ih =>
    -- nothing is recognized here, so that the search goes on at the next character
    rw [List.cons_append, find?, ← List.cons_append, hr (hs.1 rest)]
    simp only [ih hs.2, List.length_cons]
    congr 1
    omega

theorem findAll_append_of_quiet {recognize : List Char → Option (α × Nat)}
    (hr : NeedsComment recognize) {s : List Char} (hs : Quiet s) (pos : Nat) (rest : List Char) :
    findAll recognize 0 pos (s ++ rest) = findAll recognize 0 (pos + s.length) rest := by
  induction s generalizing pos with
  | nil => rfl
  | cons c s ih =>
    rw [List.cons_append, findAll, ← List.cons_append, hr (hs.1 rest)]
    simp only [ih hs.2, List.length_cons]
    congr 1
    omega

/-- The characters of an earlier find are passed over. -/
theorem findAll_append_of_skipped (recognize : List Char → Option (α × Nat)) (s : List Char)
    (pos : Nat) (rest : List Char) :
    findAll recognize s.length pos (s ++ rest) = findAll recognize 0 (pos + s.length) rest := by
  induction s generalizing pos with
  | nil => rfl
  | cons c s ih =>
    rw [List.cons_append, List.length_cons, findAll, ih]
    congr 1
    omega

end BlockTemplate
