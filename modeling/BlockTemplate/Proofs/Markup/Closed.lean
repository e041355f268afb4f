import BlockTemplate.Proofs.Markup.Extent

/-!
# Texts that close their comments

If every comment that starts in a text also ends in it, then what stands behind the text does not
change what is found in it. The markers in a text put together of such pieces are those of the
pieces, one after the other, so that a piece can be written in another way as long as its markers
stay.

## Key results

- `marker?_append_of_closesComments`: what stands behind such a text does not change its markers
- `itemsIn_append`: what is found in two texts, one behind the other
- `IsComment.itemsIn_append`: what is found at a marker
-/

namespace BlockTemplate

/-! ## Patterns and what stands behind them -/

theorem afterPattern?_append_of_length_le {pattern s : List Char}
    (h : afterPattern? pattern s = none) (hle : pattern.length ≤ s.length) (t : List Char) :
    afterPattern? pattern (s ++ t) = none := by
  induction pattern generalizing s with
  | nil => exact nomatch h
  | cons p pattern ih =>
    cases s with
    | nil => exact absurd hle (by simp)
    | cons c s =>
      simp only [List.cons_append, afterPattern?] at h ⊢
      split
      · rename_i hc
        rw [if_pos hc] at h
        exact ih h (Nat.le_of_succ_le_succ hle)
      · rfl

/-- The first occurrence of a pattern stays the first one in a longer text. -/
theorem splitAtPattern?_append_of_some {pattern s before after : List Char}
    (h : splitAtPattern? pattern s = some (before, after)) (t : List Char) :
    splitAtPattern? pattern (s ++ t) = some (before, after ++ t) := by
  induction s generalizing before with
  | nil =>
    cases pattern with
    | nil =>
      cases h
      cases t <;> rfl
    | cons p pattern => exact nomatch h
  | cons c s ih =>
    have hlength := length_of_splitAtPattern? h
    simp only [splitAtPattern?] at h
    rw [List.cons_append, splitAtPattern?, ← List.cons_append]
    split at h
    · rename_i found hfound
      cases h
      rw [afterPattern?_append_of_some hfound]
    · rename_i hnone
      obtain ⟨⟨before', after'⟩, hsplit, heq⟩ := Option.map_eq_some_iff.1 h
      cases heq
      -- the pattern has its length within the text, so that it does not start here
      rw [afterPattern?_append_of_length_le hnone (by omega), ih hsplit]
      rfl

theorem comment?_append_of_some {s content : List Char} (h : comment? s = some content)
    (t : List Char) : comment? (s ++ t) = some content := by
  simp only [comment?, Option.bind_eq_bind, Option.pure_def, Option.bind_eq_some_iff,
    Option.some.injEq] at h
  obtain ⟨inner, hstart, ⟨before, after⟩, hsplit, rfl⟩ := h
  rw [comment?, afterPattern?_append_of_some hstart]
  simp only [Option.bind_eq_bind, Option.bind_some, splitAtPattern?_append_of_some hsplit,
    Option.pure_def]

/-- A comment is what starts one and ends it. -/
theorem isSome_comment?_iff {s : List Char} :
    (comment? s).isSome
      ↔ ∃ inner, afterPattern? commentStart s = some inner
        ∧ (splitAtPattern? commentEnd inner).isSome := by
  constructor
  · intro h
    obtain ⟨content, hcontent⟩ := Option.isSome_iff_exists.1 h
    simp only [comment?, Option.bind_eq_bind, Option.pure_def, Option.bind_eq_some_iff,
      Option.some.injEq] at hcontent
    obtain ⟨inner, hstart, split, hsplit, -⟩ := hcontent
    exact ⟨inner, hstart, by rw [hsplit]; rfl⟩
  · rintro ⟨inner, hstart, hsplit⟩
    obtain ⟨split, hsplit⟩ := Option.isSome_iff_exists.1 hsplit
    rw [comment?, hstart]
    simp only [Option.bind_eq_bind, Option.bind_some, hsplit]
    rfl

/-- The end of a comment is not in a text without an angle bracket. -/
theorem isSome_splitAtPattern?_of_append {s t : List Char} (ht : '>' ∉ t)
    (h : (splitAtPattern? commentEnd (s ++ t)).isSome) :
    (splitAtPattern? commentEnd s).isSome := by
  induction s with
  | nil =>
    obtain ⟨⟨before, after⟩, hsplit⟩ := Option.isSome_iff_exists.1 h
    obtain ⟨hs, -⟩ := splitAtPattern?_take hsplit
    rw [List.nil_append] at hs
    exact absurd (by rw [hs]; simp [commentEnd]) ht
  | cons c s ih =>
    rw [List.cons_append, splitAtPattern?] at h
    rw [splitAtPattern?]
    split
    · rfl
    · rename_i hnone
      rw [Option.isSome_map]
      refine ih ?_
      split at h
      · -- an end that starts here would reach into the text behind
        rename_i after hafter
        rw [← List.cons_append] at hafter
        by_cases hle : commentEnd.length ≤ (c :: s).length
        · rw [afterPattern?_append_of_length_le hnone hle] at hafter
          cases hafter
        · have hmem : '>' ∈ t := by
            have hwhole := eq_append_of_afterPattern? hafter
            rcases s with _ | ⟨d, _ | ⟨e, s⟩⟩
            · simp only [commentEnd, List.cons_append, List.nil_append, List.cons.injEq] at hwhole
              rw [hwhole.2]
              simp
            · simp only [commentEnd, List.cons_append, List.nil_append, List.cons.injEq] at hwhole
              rw [hwhole.2.2]
              simp
            · exact absurd (by simp [commentEnd]) hle
          exact absurd hmem ht
      · rwa [Option.isSome_map] at h

/-! ## Closed texts -/

/-- Whether every comment that starts in a text also ends in it. -/
def closesComments : List Char → Bool
  | [] => true
  | c :: s =>
    ((afterPattern? commentStart (c :: s)).isNone || (comment? (c :: s)).isSome) && closesComments s

/-- What can stand behind a text and not complete the start of a comment there. -/
def StaysApart (rest : List Char) : Prop := ∀ c ∈ rest.head?, c ≠ '!' ∧ c ≠ '-'

theorem staysApart_nil : StaysApart [] := fun _ hc => nomatch hc

theorem staysApart_cons {c : Char} (h : c ≠ '!' ∧ c ≠ '-') (s : List Char) :
    StaysApart (c :: s) := by
  intro d hd
  cases hd
  exact h

theorem StaysApart.append {s t : List Char} (hs : StaysApart s) (ht : StaysApart t) :
    StaysApart (s ++ t) := by
  cases s with
  | nil => exact ht
  | cons c s => exact staysApart_cons (hs c rfl) _

/-- No comment starts between a text and what stands apart from it. -/
theorem afterPattern?_commentStart_append {s rest : List Char} (hne : s ≠ [])
    (h : afterPattern? commentStart s = none) (hrest : StaysApart rest) :
    afterPattern? commentStart (s ++ rest) = none := by
  by_cases hle : commentStart.length ≤ s.length
  · exact afterPattern?_append_of_length_le h hle rest
  · -- a shorter text would have to be continued with the second, third or fourth character
    match s, hne, hle with
    | [a], _, _ | [a, b], _, _ | [a, b, c], _, _ =>
      cases rest with
      | nil => simpa using h
      | cons d rest =>
        have hd := hrest d rfl
        simp only [commentStart, List.cons_append, List.nil_append, afterPattern?]
        grind
    | a :: b :: c :: d :: s, _, hle => exact absurd (by simp [commentStart]) hle

section
variable {s t rest : List Char}

theorem closesComments_cons {c : Char} :
    closesComments (c :: s) = true
      ↔ (afterPattern? commentStart (c :: s) = none ∨ (comment? (c :: s)).isSome)
        ∧ closesComments s = true := by
  simp [closesComments]

/-- What stands behind a text does not change the marker at its start. -/
theorem marker?_append_of_closesComments (hs : closesComments s) (hne : s ≠ [])
    (hrest : StaysApart rest) : marker? (s ++ rest) = marker? s := by
  obtain ⟨c, s, rfl⟩ := List.exists_cons_of_ne_nil hne
  rcases (closesComments_cons.1 hs).1 with hnone | hsome
  · rw [marker?_eq_none_of_no_comment hnone, marker?_eq_none_of_no_comment
      (afterPattern?_commentStart_append hne hnone hrest)]
  · obtain ⟨content, hcontent⟩ := Option.isSome_iff_exists.1 hsome
    rw [marker?, marker?, hcontent, comment?_append_of_some hcontent]

theorem closesComments_of_append (h : closesComments (s ++ t)) : closesComments t := by
  induction s with
  | nil => exact h
  | cons c s ih => exact ih (closesComments_cons.1 h).2

theorem closesComments_append (hs : closesComments s) (ht : closesComments t)
    (hapart : StaysApart t) : closesComments (s ++ t) := by
  induction s with
  | nil => exact ht
  | cons c s ih =>
    obtain ⟨hhere, hs⟩ := closesComments_cons.1 hs
    refine closesComments_cons.2 ⟨?_, ih hs⟩
    rcases hhere with hnone | hsome
    · exact .inl (afterPattern?_commentStart_append (List.cons_ne_nil c s) hnone hapart)
    · obtain ⟨content, hcontent⟩ := Option.isSome_iff_exists.1 hsome
      have hlonger := comment?_append_of_some hcontent t
      exact .inr (Option.isSome_iff_exists.2 ⟨content, hlonger⟩)

theorem Quiet.closesComments_append (hs : Quiet s) (ht : closesComments t) :
    closesComments (s ++ t) := by
  induction s with
  | nil => exact ht
  | cons c s ih => exact closesComments_cons.2 ⟨.inl (hs.1 t), ih hs.2⟩

theorem Quiet.closesComments (hs : Quiet s) : closesComments s := by
  have happend := hs.closesComments_append (t := []) rfl
  rwa [List.append_nil] at happend

/-- No comment ends in what has no angle bracket, so that it may be left out at the end. -/
theorem closesComments_of_append_of_not_mem (h : closesComments (s ++ t)) (ht : '>' ∉ t) :
    closesComments s := by
  induction s with
  | nil => rfl
  | cons c s ih =>
    obtain ⟨hhere, hs⟩ := closesComments_cons.1 h
    refine closesComments_cons.2 ⟨?_, ih hs⟩
    cases hstart : afterPattern? commentStart (c :: s) with
    | none => exact .inl rfl
    | some inner =>
      have hlonger := afterPattern?_append_of_some hstart t
      rcases hhere with hnone | hsome
      · exact nomatch hnone.symm.trans hlonger
      · obtain ⟨inner', hinner, hsplit⟩ := isSome_comment?_iff.1 hsome
        cases hlonger.symm.trans hinner
        have hshort := isSome_splitAtPattern?_of_append ht hsplit
        exact .inr (isSome_comment?_iff.2 ⟨inner, hstart, hshort⟩)

end

/-! ## What is found in a text -/

section
variable {α : Type}

/-- What a function makes of the markers in a text, in order. -/
def itemsIn (f : Marker → Option α) (s : List Char) : List α :=
  (findAll (markerAs f) 0 0 s).map Found.item

/-- What is found in a text does not depend on where it starts. -/
theorem map_item_findAll (recognize : List Char → Option (α × Nat)) (skipped pos pos' : Nat)
    (s : List Char) :
    (findAll recognize skipped pos s).map Found.item
      = (findAll recognize skipped pos' s).map Found.item := by
  induction s generalizing skipped pos pos' with
  | nil => rfl
  | cons c s ih =>
    simp only [findAll]
    split
    · exact ih _ _ _
    · split
      · rw [List.map_cons, List.map_cons, ih _ (pos + 1) (pos' + 1)]
      · exact ih _ _ _

theorem map_item_findAll_markerAs (f : Marker → Option α) (pos : Nat) (s : List Char) :
    (findAll (markerAs f) 0 pos s).map Found.item = itemsIn f s :=
  map_item_findAll (markerAs f) 0 pos 0 s

variable (f : Marker → Option α) {s rest : List Char}

/-- What is found in a text and behind it. -/
theorem findAll_append {skipped : Nat} (hs : closesComments s) (hrest : StaysApart rest)
    (hskipped : skipped ≤ s.length) (pos : Nat) :
    findAll (markerAs f) skipped pos (s ++ rest)
      = findAll (markerAs f) skipped pos s ++ findAll (markerAs f) 0 (pos + s.length) rest := by
  induction s generalizing skipped pos with
  | nil =>
    obtain rfl : skipped = 0 := Nat.le_zero.1 hskipped
    rfl
  | cons c s ih =>
    have hinner := (closesComments_cons.1 hs).2
    have hplace : pos + (c :: s).length = pos + 1 + s.length := by
      rw [List.length_cons]
      omega
    cases skipped with
    | succ skipped =>
      rw [List.cons_append, findAll, findAll, ih hinner (Nat.le_of_succ_le_succ hskipped), hplace]
    | zero =>
      have hhere : markerAs f (c :: s ++ rest) = markerAs f (c :: s) := by
        rw [markerAs, markerAs,
          marker?_append_of_closesComments hs (List.cons_ne_nil c s) hrest]
      rw [List.cons_append, findAll, findAll, ← List.cons_append, hhere, hplace]
      cases hfound : markerAs f (c :: s) with
      | none => exact ih hinner (Nat.zero_le _) _
      | some found =>
        obtain ⟨item, size⟩ := found
        -- what is found lies within the text
        have hsize := (fits_markerAs f hfound).2
        rw [List.length_cons] at hsize
        dsimp only
        rw [ih hinner (by omega), List.cons_append]

theorem itemsIn_append (hs : closesComments s) (hrest : StaysApart rest) :
    itemsIn f (s ++ rest) = itemsIn f s ++ itemsIn f rest := by
  rw [itemsIn, findAll_append f hs hrest (Nat.zero_le _), List.map_append,
    map_item_findAll_markerAs, map_item_findAll_markerAs]

theorem Quiet.itemsIn_append (hs : Quiet s) : itemsIn f (s ++ rest) = itemsIn f rest := by
  rw [itemsIn, findAll_append_of_quiet (needsComment_markerAs f) hs, map_item_findAll_markerAs]

theorem Quiet.itemsIn_eq_nil (hs : Quiet s) : itemsIn f s = [] := by
  have happend : itemsIn f (s ++ []) = itemsIn f [] := hs.itemsIn_append f
  rwa [List.append_nil] at happend

end

/-! ## Markers as texts -/

/-- Whether a text is a marker and nothing more: a comment in which no other one starts. -/
structure IsComment (s : List Char) (m : Marker) : Prop where
  marker : ∀ rest, marker? (s ++ rest) = some (m, s.length)
  quiet_tail : Quiet s.tail

theorem Marker.IsProper.isComment {m : Marker} (h : m.IsProper) : IsComment m.chars m :=
  ⟨marker?_chars h, h.quiet_tail⟩

namespace IsComment

variable {s : List Char} {m : Marker}

theorem exists_eq_cons (h : IsComment s m) : ∃ t, s = '<' :: t := by
  have hmarker := h.marker []
  rw [List.append_nil] at hmarker
  obtain ⟨content, rest, hs, -, -⟩ := exists_comment_of_marker? hmarker
  exact ⟨_, hs⟩

theorem staysApart (h : IsComment s m) (rest : List Char) : StaysApart (s ++ rest) := by
  obtain ⟨t, rfl⟩ := h.exists_eq_cons
  exact staysApart_cons (by decide) _

theorem closesComments_append (h : IsComment s m) {rest : List Char}
    (hrest : closesComments rest) : closesComments (s ++ rest) := by
  have hmarker := h.marker rest
  obtain ⟨t, rfl⟩ := h.exists_eq_cons
  refine closesComments_cons.2 ⟨.inr ?_, h.quiet_tail.closesComments_append hrest⟩
  rw [marker?] at hmarker
  obtain ⟨content, hcontent, -⟩ := Option.bind_eq_some_iff.1 hmarker
  exact Option.isSome_iff_exists.2 ⟨content, hcontent⟩

variable {α : Type} (f : Marker → Option α)

/-- What is found at a marker is the marker. -/
theorem findAll_append (h : IsComment s m) (pos : Nat) (rest : List Char) :
    findAll (markerAs f) 0 pos (s ++ rest)
      = ((f m).map (⟨pos, pos + s.length, ·⟩)).toList
        ++ findAll (markerAs f) 0 (pos + s.length) rest := by
  have hrecognize : markerAs f (s ++ rest) = (f m).map (·, s.length) := by
    rw [markerAs, h.marker, Option.bind_some]
  have hquiet := h.quiet_tail
  obtain ⟨t, rfl⟩ := h.exists_eq_cons
  have hsize : pos + 1 + t.length = pos + ('<' :: t).length := by
    rw [List.length_cons]
    omega
  rw [List.cons_append] at hrecognize ⊢
  rw [findAll, hrecognize]
  cases f m with
  | some item =>
    -- the rest of a find is passed over
    have hskip := findAll_append_of_skipped (markerAs f) t (pos + 1) rest
    rw [hsize] at hskip
    simpa using hskip
  | none =>
    -- the rest of a marker that means nothing is searched, and nothing starts in it
    have hrest := findAll_append_of_quiet (needsComment_markerAs f) hquiet (pos + 1) rest
    rw [List.tail_cons, hsize] at hrest
    simpa using hrest

theorem itemsIn_append (h : IsComment s m) (rest : List Char) :
    itemsIn f (s ++ rest) = (f m).toList ++ itemsIn f rest := by
  rw [itemsIn, h.findAll_append f, List.map_append, map_item_findAll_markerAs]
  cases f m with
  | none => rfl
  | some item => rfl

end IsComment

end BlockTemplate
