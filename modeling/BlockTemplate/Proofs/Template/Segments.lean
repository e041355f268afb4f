import BlockTemplate.Proofs.Reference.Chunks
import BlockTemplate.Proofs.Tag.Depth
import BlockTemplate.Proofs.Template.Canonical
import BlockTemplate.Proofs.Text.Cutting
import BlockTemplate.Template.Source

/-!
# Literal text and its tags

Literal text is cut at its outermost tags. A tag that starts within another one ends within it, so
that those are the tags which start behind the end of every tag that starts before them. Nothing is
lost: with the braces around the tags put back, the pieces are the text again.

## Key results

- `IsTagAt.le_of_within`: a tag that starts within a tag ends within it
- `splitsAtTags_iff_cutsInto`: what tells the pieces of a text from all other lists of pieces
- `readTagPieces_splitsAtTags`: the text is cut so, unless its tags nest too deep
-/

namespace BlockTemplate

/-! ## Tags within tags -/

/-- Whether every tag that starts within the text `s`, whatever follows it, ends within it. -/
def ClosesTags (s : List Char) : Prop :=
  ∀ i t rest after, i < s.length → IsTag t → (s ++ rest).drop i = t ++ after →
    i + t.length ≤ s.length

theorem closesTags_nil : ClosesTags [] := fun _ _ _ _ hi => nomatch hi

theorem IsTag.exists_body {t : List Char} (h : IsTag t) : ∃ body, t = '{' :: body ++ ['}'] := by
  obtain @⟨first, items, -, -, -⟩ := h
  exact ⟨first :: items, rfl⟩

theorem closesTags_char {c : Char} (hc : c ≠ '{') : ClosesTags [c] := by
  intro i t rest after hi ht h
  obtain rfl : i = 0 := by simpa using hi
  obtain ⟨body, rfl⟩ := ht.exists_body
  exact absurd (List.cons.inj h).1 hc

theorem ClosesTags.append {s t : List Char} (hs : ClosesTags s) (ht : ClosesTags t) :
    ClosesTags (s ++ t) := by
  intro i u rest after hi hu h
  rw [List.length_append] at hi ⊢
  by_cases hlt : i < s.length
  · rw [List.append_assoc] at h
    have := hs i u (t ++ rest) after hlt hu h
    omega
  · obtain ⟨j, rfl⟩ := Nat.exists_eq_add_of_le (Nat.le_of_not_lt hlt)
    rw [List.append_assoc, List.drop_length_add_append] at h
    have := ht j u rest after (by omega) hu h
    omega

/-- Two tags at the start of one text are the same. -/
theorem IsTag.eq_of_append_eq {t u rest after : List Char} (ht : IsTag t) (hu : IsTag u)
    (h : t ++ rest = u ++ after) : t = u := by
  obtain ⟨body, rfl⟩ := ht.exists_body
  obtain ⟨body', rfl⟩ := hu.exists_body
  have hread : tag? ('{' :: body ++ ['}'] ++ rest) = some (body, rest) :=
    tag?_eq_some_iff.2 ⟨ht, by simp⟩
  have hread' : tag? ('{' :: body' ++ ['}'] ++ after) = some (body', after) :=
    tag?_eq_some_iff.2 ⟨hu, by simp⟩
  rw [h, hread'] at hread
  cases hread
  rfl

mutual

theorem IsTag.closesTags {t : List Char} (h : IsTag t) : ClosesTags t := by
  match h with
  | @IsTag.braces first items hstart hitems hend =>
    have htag : IsTag ('{' :: first :: (items ++ ['}'])) := .braces hstart hitems hend
    have hfirst := closesTags_char (ne_brace_of_isTagStart hstart).1
    have hinner : ClosesTags (first :: (items ++ ['}'])) :=
      hfirst.append (hitems.closesTags.append (closesTags_char (by decide)))
    intro i u rest after hi hu hdrop
    cases i with
    | zero =>
      rw [htag.eq_of_append_eq hu hdrop, Nat.zero_add]
    | succ i =>
      have := hinner i u rest after (by simpa using hi) hu hdrop
      simp only [List.length_cons] at this ⊢
      omega

theorem IsTagItems.closesTags {items : List Char} (h : IsTagItems items) : ClosesTags items := by
  match h with
  | .nil => exact closesTags_nil
  | .char hopen _ hitems => exact (closesTags_char hopen).append hitems.closesTags
  | .tag ht hitems => exact ht.closesTags.append hitems.closesTags

end

section
variable {text front rest : List Char} {start stop start' stop' : Nat}

theorem IsTagAt.lt (h : IsTagAt text start stop) : start < stop := by
  obtain ⟨body, hbody⟩ := h.2.exists_body
  have hlength := congrArg List.length hbody
  simp only [slice, List.length_take, List.length_drop, List.length_append, List.length_cons]
    at hlength
  omega

/-- A tag that starts within a tag ends within it. -/
theorem IsTagAt.le_of_within (h : IsTagAt text start stop) (h' : IsTagAt text start' stop')
    (hle : start ≤ start') (hlt : start' < stop) : stop' ≤ stop := by
  have houter : slice text start stop ++ text.drop stop = text.drop start :=
    slice_append_drop h.lt.le
  have hinner : slice text start' stop' ++ text.drop stop' = text.drop start' :=
    slice_append_drop h'.lt.le
  have hlength : (slice text start stop).length = stop - start := length_slice_of_le h.1
  have hlength' : (slice text start' stop').length = stop' - start' := length_slice_of_le h'.1
  have hdrop : (slice text start stop ++ text.drop stop).drop (start' - start)
      = slice text start' stop' ++ text.drop stop' := by
    rw [houter, hinner, List.drop_drop]
    congr 1
    omega
  have := h.2.closesTags (start' - start) _ _ _ (by omega) h'.2 hdrop
  have := h'.lt
  omega

theorem isTagAt_append_iff :
    IsTagAt (front ++ rest) (front.length + start) (front.length + stop)
      ↔ IsTagAt rest start stop := by
  have hslice : slice (front ++ rest) (front.length + start) (front.length + stop)
      = slice rest start stop := by
    rw [slice, slice, List.drop_length_add_append, Nat.add_sub_add_left]
  rw [IsTagAt, IsTagAt, hslice, List.length_append, Nat.add_le_add_iff_left]

/-! ## Outermost tags -/

/-- Whether a tag stands in a text that is not within another one: every tag that starts before it
    ends before it, too. -/
def IsOutermostTag (text : List Char) (start stop : Nat) : Prop :=
  IsTagAt text start stop
    ∧ ∀ start' stop', IsTagAt text start' stop' → start' < start → stop' ≤ start

/-- Behind a place that no tag reaches across, what stands before it does not matter. -/
theorem isOutermostTag_append_iff
    (hwithin : ∀ i < front.length, ∀ j, IsTagAt (front ++ rest) i j → j ≤ front.length) :
    IsOutermostTag (front ++ rest) (front.length + start) (front.length + stop)
      ↔ IsOutermostTag rest start stop := by
  refine and_congr isTagAt_append_iff ⟨fun h i j htag hlt => ?_, fun h i j htag hlt => ?_⟩
  · have := h _ _ (isTagAt_append_iff.2 htag) (Nat.add_lt_add_left hlt _)
    omega
  · by_cases hi : i < front.length
    · have := hwithin i hi j htag
      omega
    · obtain ⟨i, rfl⟩ := Nat.exists_eq_add_of_le (Nat.le_of_not_lt hi)
      obtain ⟨j, rfl⟩ := Nat.exists_eq_add_of_le (Nat.le_trans (Nat.le_of_not_lt hi) htag.lt.le)
      have := h i j (isTagAt_append_iff.1 htag) (by omega)
      omega

end

/-! ## Pieces -/

/-- Whether a piece stands at a position of the text that the pieces make up. -/
def StandsAt (pieces : List (Piece (List Char))) (piece : Piece (List Char)) (start : Nat) : Prop :=
  ∃ front back, pieces = front ++ piece :: back ∧ (front.flatMap Piece.chars).length = start

/-- Pieces of a text that tell its outermost tags from the literal text between them. -/
structure SplitsAtTags (text : List Char) (pieces : List (Piece (List Char))) : Prop where
  /-- With the braces around the tags put back, the pieces are the text. -/
  lossless : pieces.flatMap Piece.chars = text
  /-- The tags are the outermost ones of the text, each of them where it is. -/
  outermost : ∀ start stop, IsOutermostTag text start stop
    ↔ ∃ body, StandsAt pieces (.found body) start ∧ stop = start + (Piece.found body).chars.length
  /-- Literal pieces are not empty, and no tag starts in them. -/
  literal : ∀ chars start, StandsAt pieces (.literal chars) start →
    chars ≠ [] ∧ ∀ i < chars.length, ∀ stop, ¬ IsTagAt text (start + i) stop
  /-- No two literal pieces stand side by side. -/
  apart : pieces.IsChain fun piece next =>
    ∀ chars more, piece = .literal chars → next ≠ .literal more

section
variable {piece other : Piece (List Char)} {pieces : List (Piece (List Char))}
  {rest : List Char} {start stop : Nat}

theorem standsAt_cons_iff : StandsAt (piece :: pieces) other start
    ↔ piece = other ∧ start = 0
      ∨ ∃ n, start = piece.chars.length + n ∧ StandsAt pieces other n := by
  constructor
  · rintro ⟨front, back, heq, rfl⟩
    cases front with
    | nil =>
      cases heq
      exact .inl ⟨rfl, rfl⟩
    | cons first front =>
      cases heq
      exact .inr ⟨_, by simp, front, back, rfl, rfl⟩
  · rintro (⟨rfl, rfl⟩ | ⟨n, rfl, front, back, rfl, rfl⟩)
    · exact ⟨[], pieces, rfl, rfl⟩
    · exact ⟨piece :: front, back, rfl, by simp⟩

/-- What a piece at the start of a text is: a tag, or characters at which no tag starts. -/
def Piece.Leads (piece : Piece (List Char)) (rest : List Char) : Prop :=
  match piece with
  | .literal chars =>
    chars ≠ [] ∧ ∀ i < chars.length, ∀ stop, ¬ IsTagAt (chars ++ rest) i stop
  | .found body => IsTag ('{' :: body ++ ['}'])

theorem Piece.Leads.chars_length_pos (h : piece.Leads rest) : 0 < piece.chars.length := by
  cases piece with
  | literal chars => exact List.length_pos_iff.2 h.1
  | found body => simp [Piece.chars]

theorem isTagAt_zero_of_isTag {t : List Char} (h : IsTag t) : IsTagAt (t ++ rest) 0 t.length := by
  refine ⟨by simp, ?_⟩
  rwa [slice, List.drop_zero, Nat.sub_zero, List.take_left]

/-- No tag reaches from the first piece into the others. -/
theorem Piece.Leads.le_of_isTagAt (h : piece.Leads rest) (hstart : start < piece.chars.length)
    (htag : IsTagAt (piece.chars ++ rest) start stop) : stop ≤ piece.chars.length := by
  cases piece with
  | literal chars => exact absurd htag (h.2 start hstart stop)
  | found body => exact (isTagAt_zero_of_isTag h).le_of_within htag (Nat.zero_le _) hstart

/-- The only outermost tag that starts in the first piece is the piece itself, if it is a tag. -/
theorem Piece.Leads.isOutermostTag_iff (h : piece.Leads rest)
    (hstart : start < piece.chars.length) :
    IsOutermostTag (piece.chars ++ rest) start stop
      ↔ ∃ body, piece = .found body ∧ start = 0 ∧ stop = piece.chars.length := by
  cases piece with
  | literal chars =>
    exact ⟨fun htag => absurd htag.1 (h.2 start hstart stop),
      fun ⟨body, hbody, _⟩ => nomatch hbody⟩
  | found body =>
    have htag : IsTagAt ((Piece.found body).chars ++ rest) 0 (Piece.found body).chars.length :=
      isTagAt_zero_of_isTag h
    constructor
    · rintro ⟨hat, houtermost⟩
      obtain rfl : start = 0 := by
        by_contra hne
        have := houtermost 0 _ htag (by omega)
        omega
      have hle := htag.le_of_within hat (Nat.le_refl _) hstart
      have hge := hat.le_of_within htag (Nat.le_refl _) hat.lt
      exact ⟨body, rfl, rfl, Nat.le_antisymm hle hge⟩
    · rintro ⟨body, -, rfl, rfl⟩
      exact ⟨htag, fun _ _ _ hlt => nomatch hlt⟩

theorem standsAt_cons_iff_of_lt (hstart : start < piece.chars.length) :
    StandsAt (piece :: pieces) other start ↔ piece = other ∧ start = 0 := by
  rw [standsAt_cons_iff]
  refine ⟨fun h => h.resolve_right ?_, .inl⟩
  rintro ⟨n, rfl, -⟩
  omega

theorem standsAt_cons_add_iff (hpos : 0 < piece.chars.length) :
    StandsAt (piece :: pieces) other (piece.chars.length + start)
      ↔ StandsAt pieces other start := by
  rw [standsAt_cons_iff]
  constructor
  · rintro (⟨-, h⟩ | ⟨n, h, hpiece⟩)
    · omega
    · rwa [Nat.add_left_cancel h]
  · exact fun h => .inr ⟨start, rfl, h⟩

/-- The pieces behind the first one split what follows it. -/
theorem SplitsAtTags.of_cons (h : SplitsAtTags (piece.chars ++ rest) (piece :: pieces)) :
    piece.Leads rest
      ∧ (∀ next ∈ pieces.head?, ∀ chars more, piece = .literal chars → next ≠ .literal more)
      ∧ SplitsAtTags rest pieces := by
  have hfirst : StandsAt (piece :: pieces) piece 0 := standsAt_cons_iff.2 (.inl ⟨rfl, rfl⟩)
  have hleads : piece.Leads rest := by
    cases piece with
    | literal chars =>
      have hliteral := h.literal chars 0 hfirst
      simp only [Nat.zero_add] at hliteral
      exact hliteral
    | found body =>
      have htag := ((h.outermost 0 _).2 ⟨body, hfirst, rfl⟩).1.2
      rwa [slice, List.drop_zero, Nat.zero_add, Nat.sub_zero, List.take_left] at htag
  -- what holds of the rest is what holds further on in the whole
  have hpos := hleads.chars_length_pos
  obtain ⟨hnext, hapart⟩ := List.isChain_cons.1 h.apart
  refine ⟨hleads, hnext, ?_, fun start stop => ?_, fun chars start hchars => ?_, hapart⟩
  · exact List.append_cancel_left h.lossless
  · have hshifted := h.outermost (piece.chars.length + start) (piece.chars.length + stop)
    rw [isOutermostTag_append_iff fun _ hi _ => hleads.le_of_isTagAt hi] at hshifted
    simpa only [standsAt_cons_add_iff hpos, Nat.add_assoc, Nat.add_left_cancel_iff] using hshifted
  · obtain ⟨hne, hnone⟩ := h.literal chars _ ((standsAt_cons_add_iff hpos).2 hchars)
    refine ⟨hne, fun i hi stop htag => hnone i hi (piece.chars.length + stop) ?_⟩
    rw [Nat.add_assoc]
    exact isTagAt_append_iff.2 htag

/-- A piece in front of a text that is split is one more piece. -/
theorem SplitsAtTags.cons (hleads : piece.Leads rest)
    (hnext : ∀ next ∈ pieces.head?, ∀ chars more, piece = .literal chars → next ≠ .literal more)
    (h : SplitsAtTags rest pieces) : SplitsAtTags (piece.chars ++ rest) (piece :: pieces) := by
  have hpos := hleads.chars_length_pos
  refine ⟨?_, fun start stop => ?_, fun chars start hchars => ?_,
    List.isChain_cons.2 ⟨hnext, h.apart⟩⟩
  · rw [List.flatMap_cons, h.lossless]
  -- what starts in the first piece is that piece, and what starts behind it is in the rest
  · by_cases hstart : start < piece.chars.length
    · rw [hleads.isOutermostTag_iff hstart]
      simp only [standsAt_cons_iff_of_lt hstart]
      constructor
      · rintro ⟨body, rfl, rfl, rfl⟩
        exact ⟨body, ⟨rfl, rfl⟩, (Nat.zero_add _).symm⟩
      · rintro ⟨body, ⟨rfl, rfl⟩, rfl⟩
        exact ⟨body, rfl, rfl, Nat.zero_add _⟩
    · obtain ⟨start, rfl⟩ := Nat.exists_eq_add_of_le (Nat.le_of_not_lt hstart)
      have hshift (stop : Nat) : IsOutermostTag (piece.chars ++ rest)
          (piece.chars.length + start) (piece.chars.length + stop)
            ↔ IsOutermostTag rest start stop :=
        isOutermostTag_append_iff fun _ hi _ => hleads.le_of_isTagAt hi
      simp only [standsAt_cons_add_iff hpos]
      constructor
      · intro htag
        have hle := Nat.le_trans (Nat.le_add_right _ start) htag.1.lt.le
        obtain ⟨stop, rfl⟩ := Nat.exists_eq_add_of_le hle
        obtain ⟨body, hbody, rfl⟩ := (h.outermost start stop).1 ((hshift stop).1 htag)
        exact ⟨body, hbody, (Nat.add_assoc ..).symm⟩
      · rintro ⟨body, hbody, rfl⟩
        rw [Nat.add_assoc]
        exact (hshift _).2 ((h.outermost start _).2 ⟨body, hbody, rfl⟩)
  · by_cases hstart : start < piece.chars.length
    · obtain ⟨rfl, rfl⟩ := (standsAt_cons_iff_of_lt hstart).1 hchars
      simp only [Nat.zero_add]
      exact hleads
    · obtain ⟨start, rfl⟩ := Nat.exists_eq_add_of_le (Nat.le_of_not_lt hstart)
      obtain ⟨hne, hnone⟩ := h.literal chars start ((standsAt_cons_add_iff hpos).1 hchars)
      refine ⟨hne, fun i hi stop htag => ?_⟩
      rw [Nat.add_assoc] at htag
      have hle := Nat.le_trans (Nat.le_add_right _ (start + i)) htag.lt.le
      obtain ⟨stop, rfl⟩ := Nat.exists_eq_add_of_le hle
      exact hnone i hi stop (isTagAt_append_iff.1 htag)

end

theorem splitsAtTags_nil : SplitsAtTags [] [] := by
  have hnone (start stop : Nat) : ¬ IsTagAt [] start stop := fun h => by
    have := h.lt
    have : stop ≤ 0 := h.1
    omega
  have hnowhere (piece : Piece (List Char)) (start : Nat) : ¬ StandsAt [] piece start := by
    rintro ⟨front, back, heq, -⟩
    simp at heq
  refine ⟨rfl, fun start stop => ?_, fun chars start h => absurd h (hnowhere _ _), .nil⟩
  exact ⟨fun h => absurd h.1 (hnone _ _), fun ⟨_, h, _⟩ => absurd h (hnowhere _ _)⟩

theorem findsNothing_tag?_iff {text : List Char} {start : Nat} :
    FindsNothing tag? (text.drop start) ↔ ∀ stop, ¬ IsTagAt text start stop := by
  simp only [← tagEnd?_eq_some_iff, tagEnd?, Option.map_eq_some_iff]
  constructor
  · rintro h stop ⟨⟨body, after⟩, htag, -⟩
    refine h body after ⟨htag, ?_⟩
    rw [eq_of_tag? htag]
    simp
    omega
  · rintro h body after ⟨htag, -⟩
    exact h _ ⟨_, htag, rfl⟩

/-- Pieces tell the outermost tags of a text from the literal text around them if and only if they
    are the cut that looks for tags. -/
theorem splitsAtTags_iff_cutsInto {text : List Char} {pieces : List (Piece (List Char))} :
    SplitsAtTags text pieces ↔ CutsInto tag? text pieces := by
  constructor
  · intro h
    -- the first piece is what the cut starts with, and the others split what follows it
    induction pieces generalizing text with
    | nil =>
      obtain rfl : [] = text := h.lossless
      exact .nil
    | cons piece pieces ih =>
      have hwhole : piece.chars ++ pieces.flatMap Piece.chars = text := h.lossless
      subst hwhole
      obtain ⟨hleads, hnext, hrest⟩ := h.of_cons
      cases piece with
      | literal chars =>
        refine .literal hleads.1 (fun i hi => findsNothing_tag?_iff.2 (hleads.2 i hi)) ?_ (ih hrest)
        exact fun more hmore => hnext _ hmore chars more rfl rfl
      | found body =>
        have hshape : (Piece.found body).chars ++ pieces.flatMap Piece.chars
            = '{' :: (body ++ '}' :: pieces.flatMap Piece.chars) := by simp [Piece.chars]
        have hfinds : Finds tag? ((Piece.found body).chars ++ pieces.flatMap Piece.chars) body
            (pieces.flatMap Piece.chars) := by
          refine ⟨tag?_eq_some_iff.2 ⟨hleads, hshape⟩, ?_⟩
          rw [hshape, List.length_cons, List.length_append, List.length_cons]
          omega
        exact .found hfinds (ih hrest)
  · intro h
    induction h with
    | nil => exact splitsAtTags_nil
    | @found s after body pieces hfinds _ ih =>
      obtain ⟨htag, rfl⟩ := tag?_eq_some_iff.1 hfinds.1
      have hsplit : SplitsAtTags ((Piece.found body).chars ++ after) (.found body :: pieces) := by
        refine SplitsAtTags.cons htag ?_ ih
        rintro next - chars more ⟨⟩
      simpa [Piece.chars] using hsplit
    | @literal chars rest pieces hne hnothing hnext _ ih =>
      have hleads : (Piece.literal chars).Leads rest :=
        ⟨hne, fun i hi => findsNothing_tag?_iff.1 (hnothing i hi)⟩
      refine SplitsAtTags.cons hleads ?_ ih
      rintro next hmem _ more - rfl
      exact hnext more hmem

/-! ## Reading literal text -/

theorem hasOverflow_iff_isTooDeep (text : List Char) :
    hasOverflow text ↔ ∃ start, IsTooDeep (text.drop start) := by
  simp only [← overflows_iff_isTooDeep]
  induction text with
  | nil => simp [hasOverflow, overflows]
  | cons c rest ih =>
    rw [hasOverflow, Bool.or_eq_true, ih]
    constructor
    · rintro (h | ⟨start, h⟩)
      · exact ⟨0, h⟩
      · exact ⟨start + 1, h⟩
    · rintro ⟨_ | start, h⟩
      · exact .inl h
      · exact .inr ⟨start, h⟩

/-- Literal text whose tags do not nest too deep is data of a template, unless a reference is nested
    too deep. -/
theorem nestingError?_data_iff {text : List Char} (htext : hasOverflow text = false) :
    nestingError? [(.int 0, .data (dataChunks text))] = none
      ↔ ∀ body, .found body ∈ tagPieces text →
        (Reference.parse body).depth ≤ mostOpenReferences := by
  have hoverflow : chunksOverflow (dataChunks text) = false := by
    rw [chunksOverflow, toList_chunksSource_dataChunks, htext]
  have hdepths : nestingError? [(.int 0, .data (dataChunks text))] = none
      ↔ ∀ chunk ∈ dataChunks text, chunk.depth ≤ mostOpenReferences := by
    simp [nestingError?, childrenDepth, Node.depth, childrenDataTexts, Node.dataTexts,
      childrenHeaderDepths, Node.headerDepths, hoverflow]
  rw [hdepths, dataChunks_eq_map_toChunk, List.forall_mem_map]
  refine ⟨fun h body hbody => h (.found body) hbody, fun h piece hpiece => ?_⟩
  cases piece with
  | literal chars => exact Nat.zero_le _
  | found body => exact h body hpiece

/-- Literal text in which tags nest too deep is not read. All other literal text is cut at its
    outermost tags, in the only way there is, and written again as it was; as data of a template it
    is rejected only for a reference that is nested too deep. -/
theorem readTagPieces_splitsAtTags (text : List Char) :
    (readTagPieces text = .error .tags ∧ ∃ start, IsTooDeep (text.drop start))
      ∨ ∃ pieces, readTagPieces text = .ok pieces
        ∧ (∀ start, ¬ IsTooDeep (text.drop start))
        ∧ (∀ others, SplitsAtTags text others ↔ others = pieces)
        ∧ dataChunks text = pieces.map Piece.toChunk
        ∧ (Node.data (dataChunks text)).toSource.toList = text
        ∧ (nestingError? [(.int 0, .data (dataChunks text))] = none
          ↔ ∀ body, .found body ∈ pieces → (Reference.parse body).depth ≤ mostOpenReferences) := by
  by_cases hdeep : ∃ start, IsTooDeep (text.drop start)
  · left
    rw [readTagPieces, if_pos ((hasOverflow_iff_isTooDeep text).2 hdeep)]
    exact ⟨rfl, hdeep⟩
  · right
    have hread : readTagPieces text = .ok (tagPieces text) := by
      rw [readTagPieces, if_neg (mt (hasOverflow_iff_isTooDeep text).1 hdeep)]
    refine ⟨tagPieces text, hread, not_exists.1 hdeep, fun others => ?_,
      dataChunks_eq_map_toChunk text, toList_chunksSource_dataChunks text, ?_⟩
    · rw [splitsAtTags_iff_cutsInto]
      exact ⟨CutsInto.eq_cutPieces, fun h => h ▸ cutsInto_cutPieces text⟩
    · refine nestingError?_data_iff (Bool.eq_false_iff.2 ?_)
      exact mt (hasOverflow_iff_isTooDeep text).1 hdeep

/-- Of three thousand beginnings of tags the text is not read. -/
theorem readTagPieces_ne_of_openTags :
    ¬ ∃ pieces, readTagPieces (openTags 3000) = .ok pieces
      ∧ pieces.flatMap Piece.chars = openTags 3000 := by
  rintro ⟨pieces, hread, -⟩
  have hdeep : ∃ start, IsTooDeep ((openTags 3000).drop start) :=
    ⟨0, (overflows_iff_isTooDeep _).1 (overflows_openTags (by decide))⟩
  rw [readTagPieces, if_pos ((hasOverflow_iff_isTooDeep _).2 hdeep)] at hread
  exact nomatch hread

end BlockTemplate
