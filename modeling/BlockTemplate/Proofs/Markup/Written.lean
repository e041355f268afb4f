import BlockTemplate.Proofs.Markup.Levels

/-!
# Constructs as they are written

A written marker is followed by a line break. The line break belongs to the marker if the marker is
alone on its line; behind other text it stays, and starts the text behind the marker. The constructs
that are found in a written text are told by which of its texts share a line with the marker behind
them.

## Key results

- `markerSpan_written`: the extent of a written marker
- `constructAt_written_block`, `constructAt_written_loop`, `constructAt_written_conditional`,
  `constructAt_written_branches`: the construct that a written marker opens, with its bodies
- `nextConstruct?_of_lacks`: the first construct behind text in which none starts
-/

namespace BlockTemplate

/-- Whether the last line of a text has more in it than blanks, so that a marker behind the text is
    not alone on its line. -/
def sharesLine (s : List Char) : Bool := !beginsLine (s.reverse.dropWhile isIndent) true

/-- What a marker behind a text leaves of it: the blanks in front of the marker go with it, if it is
    alone on its line. -/
def beforeMarker (s : List Char) : List Char := if sharesLine s then s else trimEnd isIndent s

/-- What a marker leaves of the line break behind it. -/
def keptBreak (shares : Bool) : List Char := if shares then ['\n'] else []

/-- The number of characters that a marker takes of what stands behind it. -/
def takenBreak (shares : Bool) (tail : List Char) : Nat :=
  if shares then 0 else (tail.take 1).length

/-- Whether a line break stands behind a marker, unless the text ends there. -/
def BreaksLine (tail : List Char) : Prop := tail = [] ∨ ∃ rest, tail = '\n' :: rest

theorem breaksLine_cons (rest : List Char) : BreaksLine ('\n' :: rest) := .inr ⟨rest, rfl⟩

/-! ## Texts in front of markers -/

theorem exists_eq_beforeMarker_append (s : List Char) :
    ∃ t, s = beforeMarker s ++ t ∧ ∀ c ∈ t, isIndent c := by
  rw [beforeMarker]
  split
  · exact ⟨[], (List.append_nil s).symm, fun _ hc => nomatch hc⟩
  · refine ⟨(s.reverse.takeWhile isIndent).reverse, ?_, fun c hc => ?_⟩
    · rw [trimEnd, ← List.reverse_append, List.takeWhile_append_dropWhile, List.reverse_reverse]
    · exact List.all_eq_true.1 List.all_takeWhile c (List.mem_reverse.1 hc)

theorem dropWhile_isIndent_append {p : Char → Bool} {s t : List Char} (ht : t.takeWhile p = []) :
    (s ++ t).dropWhile p = s.dropWhile p ++ t := by
  induction s with
  | nil =>
    cases t with
    | nil => rfl
    | cons c t =>
      have hc : ¬ p c = true := fun hc => by
        rw [List.takeWhile_cons_of_pos hc] at ht
        exact nomatch ht
      rw [List.nil_append, List.dropWhile_cons_of_neg hc]
      rfl
  | cons c s ih =>
    rw [List.cons_append, List.dropWhile_cons, List.dropWhile_cons]
    split
    · exact ih
    · rfl

section
variable {front : List Char} {lineStart : Bool}

/-- Behind the beginning of a line only the text since then counts. -/
theorem EndsAtLine.beginsLine_append (h : EndsAtLine front lineStart) (s : List Char) :
    beginsLine ((front ++ s).reverse.dropWhile isIndent) lineStart = !sharesLine s := by
  rw [List.reverse_append, dropWhile_isIndent_append h.takeWhile_isIndent, sharesLine,
    Bool.not_not]
  cases s.reverse.dropWhile isIndent with
  | nil => exact h
  | cons c t => rfl

theorem EndsAtLine.trimEnd_append (h : EndsAtLine front lineStart) (s : List Char) :
    trimEnd isIndent (front ++ s) = front ++ trimEnd isIndent s := by
  rw [trimEnd, trimEnd, List.reverse_append, dropWhile_isIndent_append h.takeWhile_isIndent,
    List.reverse_append, List.reverse_reverse]

end

/-! ## Extents -/

theorem take_indentBefore (s rest : List Char) :
    (s ++ rest).take (s.length - indentBefore (s ++ rest) s.length) = trimEnd isIndent s
      ∧ s.length - indentBefore (s ++ rest) s.length = (trimEnd isIndent s).length := by
  have hsplit := congrArg List.length
    (List.takeWhile_append_dropWhile (p := isIndent) (l := s.reverse))
  have hlength : s.length - indentBefore (s ++ rest) s.length = (trimEnd isIndent s).length := by
    rw [List.length_append, List.length_reverse] at hsplit
    rw [indentBefore, List.take_left, trimEnd, List.length_reverse]
    omega
  refine ⟨?_, hlength⟩
  have hprefix : trimEnd isIndent s <+: s := by
    have hsuffix := List.dropWhile_suffix isIndent (l := s.reverse)
    rw [trimEnd]
    simpa using List.reverse_prefix.2 hsuffix
  rw [hlength, List.take_append_of_le_length hprefix.length_le]
  exact (List.prefix_iff_eq_take.1 hprefix).symm

theorem restOfLine?_of_breaksLine {tail : List Char} (h : BreaksLine tail) :
    restOfLine? tail = some (takenBreak false tail) := by
  rcases h with rfl | ⟨rest, rfl⟩
  · rfl
  · rfl

section
variable {front s tail : List Char} {lineStart : Bool}

/-- The extent of a marker behind some text since the beginning of a line. -/
theorem markerSpan_written (h : EndsAtLine front lineStart) (htail : BreaksLine tail)
    (s marker : List Char) :
    markerSpan (front ++ s ++ (marker ++ tail)) (front ++ s).length
        ((front ++ s).length + marker.length) lineStart
      = ((front ++ beforeMarker s).length,
        (front ++ s).length + marker.length + takenBreak (sharesLine s) tail) := by
  obtain ⟨htake, hlength⟩ := take_indentBefore (front ++ s) (marker ++ tail)
  have hdrop : (front ++ s ++ (marker ++ tail)).drop ((front ++ s).length + marker.length)
      = tail := by
    rw [← List.append_assoc, ← List.length_append, List.drop_left]
  have hbegins : positionBeginsLine (front ++ s ++ (marker ++ tail))
      ((front ++ s).length - indentBefore (front ++ s ++ (marker ++ tail)) (front ++ s).length)
      lineStart = !sharesLine s := by
    rw [positionBeginsLine, htake, trimEnd, List.reverse_reverse, h.beginsLine_append]
  rw [markerSpan]
  simp only [hbegins, hdrop, restOfLine?_of_breaksLine htail]
  cases hshares : sharesLine s with
  | true => simp [beforeMarker, takenBreak, hshares]
  | false =>
    simp only [Bool.not_false, if_true, hlength, h.trimEnd_append, beforeMarker, hshares,
      Bool.false_eq_true, if_false]

/-- The body behind a marker. -/
theorem bodyAt_written {marker : List Char} (hmarker : ∃ init, marker = init ++ ['>'])
    (front s rest : List Char) (shares lineStart : Bool) :
    bodyAt (front ++ (marker ++ '\n' :: (s ++ rest))) lineStart
        (front.length + marker.length + takenBreak shares ('\n' :: (s ++ rest)))
        (front.length + marker.length + 1 + s.length)
      = ⟨keptBreak shares ++ s, !shares⟩ := by
  obtain ⟨init, rfl⟩ := hmarker
  -- the line break behind the marker belongs to the body, or else to the extent of the marker
  cases shares with
  | true =>
    have hcode : front ++ (init ++ ['>'] ++ '\n' :: (s ++ rest))
        = (front ++ init ++ ['>']) ++ (('\n' :: s) ++ rest) := by simp
    have hstart : front.length + (init ++ ['>']).length + takenBreak true ('\n' :: (s ++ rest))
        = (front ++ init ++ ['>']).length := by simp [takenBreak]
    have hstop : front.length + (init ++ ['>']).length + 1 + s.length
        = (front ++ init ++ ['>']).length + ('\n' :: s).length := by
      simp
      omega
    rw [bodyAt, hcode, hstart, hstop, slice_append, positionBeginsLine_append]
    simp [keptBreak, beginsLine, isLineEnd]
  | false =>
    have hcode : front ++ (init ++ ['>'] ++ '\n' :: (s ++ rest))
        = (front ++ init ++ ['>', '\n']) ++ (s ++ rest) := by simp
    have hstart : front.length + (init ++ ['>']).length + takenBreak false ('\n' :: (s ++ rest))
        = (front ++ init ++ ['>', '\n']).length := by simp [takenBreak, Nat.add_assoc]
    have hstop : front.length + (init ++ ['>']).length + 1 + s.length
        = (front ++ init ++ ['>', '\n']).length + s.length := by
      simp
      omega
    rw [bodyAt, hcode, hstart, hstop, slice_append, positionBeginsLine_append]
    simp [keptBreak, beginsLine, isLineEnd]

/-- The extents of two written markers, and the body between them. -/
theorem spans_written (h : EndsAtLine front lineStart) (htail : BreaksLine tail)
    {marker : List Char} (hmarker : ∃ init, marker = init ++ ['>']) (s body marker' : List Char) :
    let code := front ++ s ++ (marker ++ '\n' :: (body ++ (marker' ++ tail)))
    let start := (front ++ s).length + marker.length
    let stop := start + 1 + body.length
    let taken := takenBreak (sharesLine s) ('\n' :: (body ++ (marker' ++ tail)))
    markerSpan code (front ++ s).length start lineStart
        = ((front ++ beforeMarker s).length, start + taken)
      ∧ markerSpan code stop (stop + marker'.length) lineStart
        = (start + 1 + (beforeMarker body).length,
          stop + marker'.length + takenBreak (sharesLine body) tail)
      ∧ bodyAt code lineStart (start + taken) (start + 1 + (beforeMarker body).length)
        = ⟨keptBreak (sharesLine s) ++ beforeMarker body, !sharesLine s⟩ := by
  intro code start stop taken
  refine ⟨markerSpan_written h (breaksLine_cons _) s marker, ?_, ?_⟩
  · -- behind the line break a line begins
    have hsecond := markerSpan_written (endsAtLine_of_newline (front ++ s ++ marker) lineStart)
      htail body marker'
    have hcode : front ++ s ++ marker ++ ['\n'] ++ body ++ (marker' ++ tail) = code := by
      simp [code]
    have hlength (t : List Char) : (front ++ s ++ marker ++ ['\n'] ++ t).length
        = start + 1 + t.length := by
      simp only [List.length_append, List.length_singleton, start]
    rwa [hcode, hlength, hlength] at hsecond
  · obtain ⟨trail, htrail, -⟩ := exists_eq_beforeMarker_append body
    have hbody := bodyAt_written hmarker (front ++ s) (beforeMarker body)
      (trail ++ (marker' ++ tail)) (sharesLine s) lineStart
    rwa [← List.append_assoc (beforeMarker body), ← htrail] at hbody

end

theorem Marker.exists_chars_eq (m : Marker) : ∃ init, m.chars = init ++ ['>'] :=
  ⟨commentStart ++ (' ' :: m.content ++ ' ' :: ['-', '-']), by
    simp [Marker.chars, commentEnd]⟩

/-! ## Constructs behind text -/

/-- A text between two markers as they are written, without the line break behind the second one. -/
def enclosed (opening closing : Marker) (body : List Char) : List Char :=
  opening.chars ++ '\n' :: (body ++ closing.chars)

theorem enclosed_append (opening closing : Marker) (body rest : List Char) :
    enclosed opening closing body ++ rest
      = opening.chars ++ '\n' :: (body ++ (closing.chars ++ rest)) := by
  simp only [enclosed, List.append_assoc, List.cons_append]

theorem length_append_enclosed (front : List Char) (opening closing : Marker) (body : List Char) :
    (front ++ enclosed opening closing body).length
      = front.length + opening.chars.length + 1 + body.length + closing.chars.length := by
  simp only [enclosed, List.length_append, List.length_cons]
  omega

theorem exists_enclosed_eq (opening closing : Marker) (body : List Char) :
    ∃ init, enclosed opening closing body = init ++ ['>'] := by
  obtain ⟨init, hinit⟩ := closing.exists_chars_eq
  refine ⟨opening.chars ++ '\n' :: (body ++ init), ?_⟩
  simp only [enclosed, hinit, List.append_assoc, List.cons_append]

theorem staysApart_enclosed (opening closing : Marker) (body rest : List Char) :
    StaysApart (enclosed opening closing body ++ rest) :=
  staysApart_cons (by decide) _

section
variable {front s body tail : List Char} {lineStart : Bool}

/-- What stands behind a written marker. -/
theorem drop_written (front marker rest : List Char) :
    (front ++ (marker ++ rest)).drop (front.length + marker.length) = rest := by
  rw [← List.append_assoc, ← List.length_append, List.drop_left]

theorem closing?_written {f : Marker → Option Turn} {m : Marker} (hbody : IsBody Turn.next f body)
    (hm : m.IsProper) (hcloses : f m = some .closes) (pos : Nat) (tail : List Char) :
    closing? 0 (findAll (markerAs f) 0 pos ('\n' :: (body ++ (m.chars ++ tail))))
      = some ⟨pos + 1 + body.length, pos + 1 + body.length + m.chars.length, .closes⟩ := by
  have hclosing := closing?_of_depthAfter hbody.newline.closes hbody.newline.level hm.isComment
    hcloses pos tail
  have hlength : pos + ('\n' :: body).length = pos + 1 + body.length := by
    rw [List.length_cons]
    omega
  rwa [hlength] at hclosing

/-- The block that a written marker opens. -/
theorem constructAt_written_block (h : EndsAtLine front lineStart) (htail : BreaksLine tail)
    {name : List Char} (hname : IsName name) (hbody : IsBody Turn.next (turnOfBlock name) body)
    (s : List Char) :
    let core := enclosed (.blockBegin name) (.blockEnd name) body
    constructAt (front ++ s ++ (core ++ tail)) lineStart
        ⟨(front ++ s).length, (front ++ s).length + (Marker.blockBegin name).chars.length,
          .blockBegin name⟩
      = .ok (some ⟨(front ++ beforeMarker s).length,
          (front ++ s ++ core).length + takenBreak (sharesLine body) tail,
          .block (String.ofList name)
            ⟨keptBreak (sharesLine s) ++ beforeMarker body, !sharesLine s⟩⟩) := by
  have hclose := closing?_written (m := .blockEnd name) hbody hname (if_pos rfl)
    ((front ++ s).length + (Marker.blockBegin name).chars.length) tail
  obtain ⟨hopen, hend, hinner⟩ := spans_written h htail (Marker.blockBegin name).exists_chars_eq s
    body (Marker.blockEnd name).chars
  simp only [enclosed_append, length_append_enclosed, constructAt, blockEnd?,
    blockTurn?_eq_markerAs, drop_written, hclose, hopen, hend, hinner]

/-- The loop that a written marker opens. -/
theorem constructAt_written_loop (h : EndsAtLine front lineStart) (htail : BreaksLine tail)
    {header : List Char} {parsed : LoopHeader} (hheader : header ≠ [])
    (hparse : LoopHeader.parse? header = some parsed) (hbody : IsBody Turn.next turnOfLoop body)
    (s : List Char) :
    let core := enclosed (.loopBegin header) .loopEnd body
    constructAt (front ++ s ++ (core ++ tail)) lineStart
        ⟨(front ++ s).length, (front ++ s).length + (Marker.loopBegin header).chars.length,
          .loopBegin header⟩
      = .ok (some ⟨(front ++ beforeMarker s).length,
          (front ++ s ++ core).length + takenBreak (sharesLine body) tail,
          .loop parsed ⟨keptBreak (sharesLine s) ++ beforeMarker body, !sharesLine s⟩⟩) := by
  have hclose := closing?_written (m := .loopEnd) hbody trivial rfl
    ((front ++ s).length + (Marker.loopBegin header).chars.length) tail
  obtain ⟨hopen, hend, hinner⟩ := spans_written h htail (Marker.loopBegin header).exists_chars_eq s
    body Marker.loopEnd.chars
  have hempty : header.isEmpty = false := by simpa using hheader
  simp only [enclosed_append, length_append_enclosed, constructAt, loopAt, hempty, loopEnd?,
    loopTurn?_eq_markerAs, drop_written, hclose, hparse, hopen, hend, hinner]
  rfl

variable {condition : List Char} {parsed : Condition}

/-- The conditional without a second branch that a written marker opens. -/
theorem constructAt_written_conditional (h : EndsAtLine front lineStart) (htail : BreaksLine tail)
    (hcondition : condition ≠ []) (hparse : Condition.parse condition = .ok parsed)
    (hbody : IsBody BranchTurn.next turnOfBranch body) (s : List Char) :
    let core := enclosed (.ifBegin condition) .ifEnd body
    constructAt (front ++ s ++ (core ++ tail)) lineStart
        ⟨(front ++ s).length, (front ++ s).length + (Marker.ifBegin condition).chars.length,
          .ifBegin condition⟩
      = .ok (some ⟨(front ++ beforeMarker s).length,
          (front ++ s ++ core).length + takenBreak (sharesLine body) tail,
          .conditional parsed ⟨keptBreak (sharesLine s) ++ beforeMarker body, !sharesLine s⟩
            ⟨[], true⟩⟩) := by
  have hends := ifEnds_of_depthAfter hbody.newline.closes hbody.newline.level
    (t := Marker.ifEnd.chars) (Marker.IsProper.isComment trivial)
    ((front ++ s).length + (Marker.ifBegin condition).chars.length) tail
  have hlength (pos : Nat) (t : List Char) : pos + ('\n' :: t).length = pos + 1 + t.length := by
    rw [List.length_cons]
    omega
  rw [hlength, List.cons_append] at hends
  obtain ⟨hopen, hend, hinner⟩ := spans_written h htail
    (Marker.ifBegin condition).exists_chars_eq s body Marker.ifEnd.chars
  have hempty : condition.isEmpty = false := by simpa using hcondition
  simp only [enclosed_append, length_append_enclosed, constructAt, conditionalAt, hempty,
    drop_written, hends, hparse, branches, hopen, hend, hinner]
  rfl

/-- The conditional with two branches that a written marker opens. -/
theorem constructAt_written_branches {others : List Char} (h : EndsAtLine front lineStart)
    (htail : BreaksLine tail) (hcondition : condition ≠ [])
    (hparse : Condition.parse condition = .ok parsed)
    (hbody : IsBody BranchTurn.next turnOfBranch body)
    (hothers : IsBody BranchTurn.next turnOfBranch others) (s : List Char) :
    let core := (Marker.ifBegin condition).chars
      ++ '\n' :: (body ++ enclosed .ifElse .ifEnd others)
    constructAt (front ++ s ++ (core ++ tail)) lineStart
        ⟨(front ++ s).length, (front ++ s).length + (Marker.ifBegin condition).chars.length,
          .ifBegin condition⟩
      = .ok (some ⟨(front ++ beforeMarker s).length,
          (front ++ s ++ core).length + takenBreak (sharesLine others) tail,
          .conditional parsed ⟨keptBreak (sharesLine s) ++ beforeMarker body, !sharesLine s⟩
            ⟨keptBreak (sharesLine body) ++ beforeMarker others, !sharesLine body⟩⟩) := by
  intro core
  have hcore (t : List Char) : core ++ t = (Marker.ifBegin condition).chars ++ '\n' :: (body
      ++ (Marker.ifElse.chars ++ '\n' :: (others ++ (Marker.ifEnd.chars ++ t)))) := by
    simp only [core, enclosed, List.append_assoc, List.cons_append]
  have hseparator : IsComment Marker.ifElse.chars .ifElse := Marker.IsProper.isComment trivial
  have hclosing : IsComment Marker.ifEnd.chars .ifEnd := Marker.IsProper.isComment trivial
  have hends := ifEnds_of_depthAfter_of_separator hbody.newline.closes hbody.newline.level
    hseparator hothers.newline.closes hothers.newline.level hclosing
    ((front ++ s).length + (Marker.ifBegin condition).chars.length) tail
  have hlength (pos : Nat) (t : List Char) : pos + ('\n' :: t).length = pos + 1 + t.length := by
    rw [List.length_cons]
    omega
  simp only [hlength, List.cons_append] at hends
  obtain ⟨hopen, hend, hinner⟩ := spans_written h (breaksLine_cons (others
      ++ (Marker.ifEnd.chars ++ tail))) (Marker.ifBegin condition).exists_chars_eq s body
    Marker.ifElse.chars
  -- the second branch stands behind the separator, as the first one stands behind the beginning
  obtain ⟨-, hend', hinner'⟩ := spans_written
    (endsAtLine_of_newline (front ++ s ++ (Marker.ifBegin condition).chars) lineStart) htail
    Marker.ifElse.exists_chars_eq body others Marker.ifEnd.chars
  have hcode : front ++ s ++ (Marker.ifBegin condition).chars ++ ['\n'] ++ body
        ++ (Marker.ifElse.chars ++ '\n' :: (others ++ (Marker.ifEnd.chars ++ tail)))
      = front ++ s ++ ((Marker.ifBegin condition).chars ++ '\n' :: (body
        ++ (Marker.ifElse.chars ++ '\n' :: (others ++ (Marker.ifEnd.chars ++ tail))))) := by
    simp only [List.append_assoc, List.cons_append, List.nil_append]
  have hplace : (front ++ s ++ (Marker.ifBegin condition).chars ++ ['\n'] ++ body).length
      = (front ++ s).length + (Marker.ifBegin condition).chars.length + 1 + body.length := by
    simp only [List.length_append, List.length_singleton]
  rw [hcode, hplace] at hend' hinner'
  have hwhole : (front ++ s ++ core).length
      = (front ++ s).length + (Marker.ifBegin condition).chars.length + 1 + body.length
        + Marker.ifElse.chars.length + 1 + others.length + Marker.ifEnd.chars.length := by
    simp only [core, enclosed, List.length_append, List.length_cons]
    omega
  have hempty : condition.isEmpty = false := by simpa using hcondition
  simp only [hcore, hwhole, constructAt, conditionalAt, hempty, drop_written, hends, hparse,
    branches, hopen, hend, hinner, hend', hinner']
  rfl

/-! ## The first construct -/

/-- The first construct is the one that the first opening marker starts. -/
theorem nextConstruct?_of_lacks {marker rest : List Char} {m : Marker}
    (h : Lacks opener? (marker ++ rest) s) (hmarker : IsComment marker m)
    (hopener : opener? (marker ++ rest) = some (m, marker.length)) (front : List Char)
    (lineStart : Bool) :
    nextConstruct? (front ++ s ++ (marker ++ rest)) lineStart front.length
      = constructAt (front ++ s ++ (marker ++ rest)) lineStart
        ⟨(front ++ s).length, (front ++ s).length + marker.length, m⟩ := by
  have hhead (pos : Nat) : find? opener? pos (marker ++ rest)
      = some ⟨pos, pos + marker.length, m⟩ := by
    obtain ⟨t, rfl⟩ := hmarker.exists_eq_cons
    rw [List.cons_append] at hopener ⊢
    rw [find?, hopener]
  rw [nextConstruct?, List.append_assoc, List.drop_left, find?_append_of_lacks h, hhead,
    List.length_append]

/-- A text without a construct that starts in it. -/
theorem nextConstruct?_of_lacks_nil (h : Lacks opener? [] s) (front : List Char)
    (lineStart : Bool) : nextConstruct? (front ++ s) lineStart front.length = .ok none := by
  have hfind := find?_append_of_lacks h front.length
  rw [List.append_nil] at hfind
  rw [nextConstruct?, List.drop_left, hfind]
  rfl

theorem opener?_of_opensAlways {marker : List Char} {m : Marker} (h : IsComment marker m)
    (hopens : m.opensAlways = true) (rest : List Char) :
    opener? (marker ++ rest) = some (m, marker.length) := by
  rw [opener?, h.marker]
  cases m with
  | loopBegin header => rfl
  | ifBegin condition => rfl
  | _ => exact absurd hopens Bool.false_ne_true

/-- A block opens, for it is closed behind its body. -/
theorem opener?_written_block {name : List Char} (hname : IsName name)
    (hbody : IsBody Turn.next (turnOfBlock name) body) (tail : List Char) :
    opener? (enclosed (.blockBegin name) (.blockEnd name) body ++ tail)
      = some (.blockBegin name, (Marker.blockBegin name).chars.length) := by
  have hclose := closing?_written (m := .blockEnd name) hbody hname (if_pos rfl) 0 tail
  have hbegin := marker?_chars (m := .blockBegin name) hname
  simp only [enclosed_append, opener?, hbegin, List.drop_left, blockEnd?, blockTurn?_eq_markerAs,
    hclose, Option.isSome_some, if_true]

end

end BlockTemplate
