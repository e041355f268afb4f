import BlockTemplate.Markup.Construct
import BlockTemplate.Proofs.Markup.Lines

/-!
# Constructs in lines

Which constructs are found in a text in lines. The markers between the beginning and the end of a
construct are those of whole constructs, and a search for the end passes over these.

## Key results

- `passesOver_blockTurn`, `passesOver_loopTurn`, `passesOver_branchTurn`: searches for end markers
  pass over constructs
- `nextConstruct?_block`, `nextConstruct?_loop`, `nextConstruct?_conditional`: the first construct
  in a text in lines, with its bodies
- `nextConstruct?_eq_none`: there is no construct in a text without comments
-/

namespace BlockTemplate

/-- A parsed condition shows the text that it was parsed from. -/
theorem Condition.shown_of_parse {source : List Char} {c : Condition}
    (h : Condition.parse source = .ok c) : c.source.shown.toList = source := by
  unfold Condition.parse at h
  split at h
  · cases h
    simp [Json.shown]
  · cases h

/-! ## Constructs in lines -/

/-- A block from its beginning to its end, in lines. -/
def blockLines (name : List Char) (lines : List Line) : List Line :=
  .marker (.blockBegin name) :: lines ++ [.marker (.blockEnd name)]

/-- A loop from its beginning to its end, in lines. -/
def loopLines (header : List Char) (lines : List Line) : List Line :=
  .marker (.loopBegin header) :: lines ++ [.marker .loopEnd]

/-- A conditional from its beginning to its end, in lines, perhaps with a second branch. -/
def conditionalLines (condition : List Char) (lines : List Line) : Option (List Line) → List Line
  | none => .marker (.ifBegin condition) :: lines ++ [.marker .ifEnd]
  | some others =>
    .marker (.ifBegin condition) :: lines ++ (.marker .ifElse :: others ++ [.marker .ifEnd])

/-! ## Searches for end markers -/

/-- What a marker is for the search for the end of a block. -/
def turnOfBlock (name : List Char) : Marker → Option Turn
  | .blockBegin other => if other = name then some .opens else none
  | .blockEnd other => if other = name then some .closes else none
  | _ => none

/-- What a marker is for the search for the end of a loop. -/
def turnOfLoop : Marker → Option Turn
  | .loopBegin _ => some .opens
  | .loopEnd => some .closes
  | _ => none

/-- What a marker is for the search for the end of a conditional. -/
def turnOfBranch : Marker → Option BranchTurn
  | .ifBegin _ => some .opens
  | .ifElse => some .separates
  | .ifEnd => some .closes
  | _ => none

theorem blockTurn?_eq_markerAs (name : List Char) :
    blockTurn? name = markerAs (turnOfBlock name) := by
  funext s
  rw [blockTurn?, markerAs]
  cases marker? s with
  | none => rfl
  | some found =>
    obtain ⟨m, size⟩ := found
    cases m <;> simp [turnOfBlock]

theorem loopTurn?_eq_markerAs : loopTurn? = markerAs turnOfLoop := by
  funext s
  rw [loopTurn?, markerAs]
  cases marker? s with
  | none => rfl
  | some found =>
    obtain ⟨m, size⟩ := found
    cases m <;> rfl

theorem branchTurn?_eq_markerAs : branchTurn? = markerAs turnOfBranch := by
  funext s
  rw [branchTurn?, markerAs]
  cases marker? s with
  | none => rfl
  | some found =>
    obtain ⟨m, size⟩ := found
    cases m <;> rfl

/-- The search for the end of a conditional, as far as it has come: the levels that are open, and
    the separator. -/
def branchScan (state : Nat × Option (Found BranchTurn)) (found : List (Found BranchTurn)) :
    Except BranchError (Option (Found BranchTurn) × Found BranchTurn) :=
  branchEnds state.1 state.2 found

/-- Whether a scan passes over constructs when it passes over their bodies. -/
structure PassesOver {α σ ρ : Type} (scan : σ → List (Found α) → ρ) (f : Marker → Option α) :
    Prop where
  block {name lines} : Neutral scan f lines → Neutral scan f (blockLines name lines)
  loop {header lines} : Neutral scan f lines → Neutral scan f (loopLines header lines)
  conditional {condition lines} :
    Neutral scan f lines → Neutral scan f (conditionalLines condition lines none)
  branches {condition lines others} : Neutral scan f lines → Neutral scan f others →
    Neutral scan f (conditionalLines condition lines (some others))

/-- Lines between two markers that open and close. -/
theorem neutral_closing?_wrap {f : Marker → Option Turn} {lines : List Line} {m m' : Marker}
    (hm : f m = some .opens) (hm' : f m' = some .closes) (h : Neutral closing? f lines) :
    Neutral closing? f (.marker m :: lines ++ [.marker m']) := by
  intro depth pos rest
  -- between the markers one level more is open, and the second marker takes it back
  have hinner := h (depth + 1) (pos + m.chars.length + 1) (.marker m' :: rest)
  simp only [List.cons_append, List.append_assoc, List.nil_append, foundIn, hm, closing?, hinner,
    hm']
  congr 2
  simp [linesWidth, Line.chars]
  omega

theorem passesOver_blockTurn (name : List Char) : PassesOver closing? (turnOfBlock name) where
  block {other _} h := by
    -- a block of the same name counts as a level, and one of another name means nothing
    by_cases hname : other = name
    · exact neutral_closing?_wrap (if_pos hname) (if_pos hname) h
    · exact h.enclose (if_neg hname) (if_neg hname)
  loop h := h.enclose rfl rfl
  conditional h := h.enclose rfl rfl
  branches h hothers :=
    ((Neutral.marker rfl).append h).append (hothers.enclose rfl rfl)

theorem passesOver_loopTurn : PassesOver closing? turnOfLoop where
  block h := h.enclose rfl rfl
  loop h := neutral_closing?_wrap rfl rfl h
  conditional h := h.enclose rfl rfl
  branches h hothers :=
    ((Neutral.marker rfl).append h).append (hothers.enclose rfl rfl)

theorem passesOver_branchTurn : PassesOver branchScan turnOfBranch where
  block h := h.enclose rfl rfl
  loop h := h.enclose rfl rfl
  conditional {condition lines} h := by
    intro (depth, separator) pos rest
    -- within the conditional one level more is open, and the separator stays the one outside
    have hinner := h (depth + 1, separator) (pos + (Marker.ifBegin condition).chars.length + 1)
      (.marker .ifEnd :: rest)
    simp only [branchScan, conditionalLines, List.cons_append, List.append_assoc,
      List.nil_append, foundIn, turnOfBranch, branchEnds] at hinner ⊢
    rw [hinner]
    congr 2
    simp [linesWidth, Line.chars]
    omega
  branches {condition lines others} h hothers := by
    intro (depth, separator) pos rest
    have hinner := h (depth + 1, separator) (pos + (Marker.ifBegin condition).chars.length + 1)
      (.marker .ifElse :: others ++ .marker .ifEnd :: rest)
    -- the separator of an inner conditional is on a level that does not count
    have hothers := hothers (depth + 1, separator)
      (pos + (Marker.ifBegin condition).chars.length + 1 + linesWidth lines
        + Marker.ifElse.chars.length + 1) (.marker .ifEnd :: rest)
    simp only [branchScan, conditionalLines, List.cons_append, List.append_assoc,
      List.nil_append, foundIn, turnOfBranch, branchEnds] at hinner hothers ⊢
    rw [hinner, hothers]
    congr 2
    simp [linesWidth, Line.chars]
    omega

/-! ## Ends of constructs -/

variable {front : List Char} {lineStart : Bool} {m m' : Marker} {lines others rest : List Line}

/-- What is found behind a marker at the start of some lines. -/
theorem findAll_after_marker {α : Type} (h : ∀ line ∈ lines, line.IsProper)
    (f : Marker → Option α) (pos : Nat) :
    findAll (markerAs f) 0 pos ('\n' :: linesChars lines) = foundIn f (pos + 1) lines := by
  have hline := findAll_append_of_quiet (needsComment_markerAs f) quiet_newline pos
    (linesChars lines)
  rw [findAll_linesChars h] at hline
  exact hline

/-- The end marker of what is open before neutral lines is the marker behind them. -/
theorem closing?_after_marker {f : Marker → Option Turn} (h : Neutral closing? f lines)
    (hm : f m = some .closes) (hproper : ∀ line ∈ lines ++ .marker m :: rest, line.IsProper)
    (pos : Nat) :
    closing? 0 (findAll (markerAs f) 0 pos ('\n' :: linesChars (lines ++ .marker m :: rest)))
      = some ⟨pos + 1 + linesWidth lines, pos + 1 + linesWidth lines + m.chars.length,
          .closes⟩ := by
  rw [findAll_after_marker hproper, h]
  simp only [foundIn, hm, closing?]

/-- A conditional without a separator. -/
theorem ifEnds_after_marker (h : Neutral branchScan turnOfBranch lines)
    (hproper : ∀ line ∈ lines ++ .marker .ifEnd :: rest, line.IsProper) (pos : Nat) :
    ifEnds pos ('\n' :: linesChars (lines ++ .marker .ifEnd :: rest))
      = .ok (none, ⟨pos + 1 + linesWidth lines,
          pos + 1 + linesWidth lines + Marker.ifEnd.chars.length, .closes⟩) := by
  rw [ifEnds, branchTurn?_eq_markerAs, findAll_after_marker hproper]
  -- no level is open at the end marker, so that it is the end
  have hscan := h (0, none) (pos + 1) (.marker .ifEnd :: rest)
  simp only [branchScan, foundIn, turnOfBranch, branchEnds] at hscan
  exact hscan

/-- A conditional with a separator. -/
theorem ifEnds_after_marker_of_separator (h : Neutral branchScan turnOfBranch lines)
    (hothers : Neutral branchScan turnOfBranch others)
    (hproper : ∀ line ∈ lines ++ .marker .ifElse :: (others ++ .marker .ifEnd :: rest),
      line.IsProper) (pos : Nat) :
    let separator := pos + 1 + linesWidth lines
    let close := separator + Marker.ifElse.chars.length + 1 + linesWidth others
    ifEnds pos ('\n' :: linesChars (lines ++ .marker .ifElse :: (others ++ .marker .ifEnd :: rest)))
      = .ok (some ⟨separator, separator + Marker.ifElse.chars.length, .separates⟩,
          ⟨close, close + Marker.ifEnd.chars.length, .closes⟩) := by
  intro separator close
  rw [ifEnds, branchTurn?_eq_markerAs, findAll_after_marker hproper]
  have hscan := h (0, none) (pos + 1) (.marker .ifElse :: (others ++ .marker .ifEnd :: rest))
  -- behind the separator the search remembers it
  have hscan' := hothers
    (0, some ⟨separator, separator + Marker.ifElse.chars.length, .separates⟩)
    (separator + Marker.ifElse.chars.length + 1) (.marker .ifEnd :: rest)
  simp only [branchScan, foundIn, turnOfBranch, branchEnds, Option.isSome_none, Bool.false_eq_true,
    if_false] at hscan hscan'
  rw [hscan, hscan']

/-! ## Extents and bodies -/

theorem drop_marker (front : List Char) (m : Marker) (rest : List Line) :
    (front ++ linesChars (.marker m :: rest)).drop (front.length + m.chars.length)
      = '\n' :: linesChars rest := by
  have hsplit : front ++ linesChars (.marker m :: rest)
      = (front ++ m.chars) ++ '\n' :: linesChars rest := by
    simp [Line.chars]
  rw [hsplit, ← List.length_append, List.drop_left]

/-- The extent of a marker at the start of lines. -/
theorem markerSpan_first (h : EndsAtLine front lineStart) (m : Marker) (rest : List Line) :
    markerSpan (front ++ linesChars (.marker m :: rest)) front.length
        (front.length + m.chars.length) lineStart
      = (front.length, front.length + m.chars.length + 1) := by
  have hspan := markerSpan_of_line h m.chars (linesChars rest)
  rwa [linesChars_cons, Line.chars, List.append_assoc, List.singleton_append]

/-- The body that consists of lines. -/
theorem bodyAt_lines (h : EndsAtLine front lineStart) (lines rest : List Line) :
    bodyAt (front ++ linesChars (lines ++ rest)) lineStart front.length
        (front.length + linesWidth lines)
      = ⟨linesChars lines, true⟩ := by
  rw [bodyAt, linesChars_append, linesWidth, slice_append, positionBeginsLine_append]
  exact congrArg _ h

/-- The body between a marker at the start of lines and the next marker, and the extent of that
    one. -/
theorem body_after_marker (h : EndsAtLine front lineStart)
    (hproper : ∀ line ∈ .marker m :: (lines ++ .marker m' :: rest), line.IsProper) :
    let code := front ++ linesChars (.marker m :: (lines ++ .marker m' :: rest))
    let start := front.length + m.chars.length + 1
    let stop := start + linesWidth lines
    bodyAt code lineStart start stop = ⟨linesChars lines, true⟩
      ∧ markerSpan code stop (stop + m'.chars.length) lineStart
        = (stop, stop + m'.chars.length + 1) := by
  intro code start stop
  have hm : ∀ line ∈ [Line.marker m], line.IsProper := fun line hl =>
    hproper line (by simp_all)
  have hlines : ∀ line ∈ lines, line.IsProper := fun line hl =>
    hproper line (List.mem_cons_of_mem _ (List.mem_append_left _ hl))
  -- the body begins where the line of the first marker ends, and it ends where a line ends
  have hfront : EndsAtLine (front ++ linesChars [.marker m]) lineStart := h.append_lines hm
  have hstart : start = (front ++ linesChars [.marker m]).length := by
    simp [start, Line.chars, Nat.add_assoc]
  have hstop : stop = (front ++ linesChars [.marker m] ++ linesChars lines).length := by
    simp [stop, hstart, linesWidth, Nat.add_assoc]
  constructor
  · have hcode : code = (front ++ linesChars [.marker m])
        ++ linesChars (lines ++ .marker m' :: rest) := by
      simp [code]
    have hbody := bodyAt_lines hfront lines (.marker m' :: rest)
    rwa [← hcode, ← hstart] at hbody
  · have hcode : code = (front ++ linesChars [.marker m] ++ linesChars lines)
        ++ linesChars (.marker m' :: rest) := by
      simp [code]
    rw [hcode, hstop]
    exact markerSpan_first (hfront.append_lines hlines) m' rest

/-! ## Finding constructs -/

theorem constructAt_block (h : EndsAtLine front lineStart) {name : List Char}
    (hlines : Neutral closing? (turnOfBlock name) lines)
    (hproper : ∀ line ∈ blockLines name lines ++ rest, line.IsProper) :
    constructAt (front ++ linesChars (blockLines name lines ++ rest)) lineStart
        ⟨front.length, front.length + (Marker.blockBegin name).chars.length, .blockBegin name⟩
      = .ok (some ⟨front.length, front.length + linesWidth (blockLines name lines),
          .block (String.ofList name) ⟨linesChars lines, true⟩⟩) := by
  have hcode : blockLines name lines ++ rest
      = .marker (.blockBegin name) :: (lines ++ .marker (.blockEnd name) :: rest) := by
    simp [blockLines]
  have hstop : front.length + linesWidth (blockLines name lines)
      = front.length + (Marker.blockBegin name).chars.length + 1 + linesWidth lines
        + (Marker.blockEnd name).chars.length + 1 := by
    simp [blockLines, linesWidth, Line.chars]
    omega
  rw [hcode] at hproper ⊢
  -- the body is neutral, so that the end of the block is the marker behind it
  have hclose := closing?_after_marker hlines (m := .blockEnd name) (if_pos rfl)
    (fun line hl => hproper line (List.mem_cons_of_mem _ hl))
    (front.length + (Marker.blockBegin name).chars.length)
  obtain ⟨hbody, hspan⟩ := body_after_marker h hproper
  simp only [constructAt, blockEnd?, blockTurn?_eq_markerAs, drop_marker, hclose,
    markerSpan_first h, hbody, hspan, hstop]

theorem constructAt_loop (h : EndsAtLine front lineStart) {header : List Char}
    {parsed : LoopHeader} (hparse : LoopHeader.parse? header = some parsed)
    (hlines : Neutral closing? turnOfLoop lines)
    (hproper : ∀ line ∈ loopLines header lines ++ rest, line.IsProper) :
    constructAt (front ++ linesChars (loopLines header lines ++ rest)) lineStart
        ⟨front.length, front.length + (Marker.loopBegin header).chars.length, .loopBegin header⟩
      = .ok (some ⟨front.length, front.length + linesWidth (loopLines header lines),
          .loop parsed ⟨linesChars lines, true⟩⟩) := by
  have hcode : loopLines header lines ++ rest
      = .marker (.loopBegin header) :: (lines ++ .marker .loopEnd :: rest) := by
    simp [loopLines]
  have hstop : front.length + linesWidth (loopLines header lines)
      = front.length + (Marker.loopBegin header).chars.length + 1 + linesWidth lines
        + Marker.loopEnd.chars.length + 1 := by
    simp [loopLines, linesWidth, Line.chars]
    omega
  rw [hcode] at hproper ⊢
  have hheader : header.isEmpty = false := by
    have hbegin : IsHeader header := hproper _ List.mem_cons_self
    simpa using hbegin.nonempty
  -- the body is neutral, so that the end of the loop is the marker behind it
  have hclose := closing?_after_marker hlines (m := .loopEnd) rfl
    (fun line hl => hproper line (List.mem_cons_of_mem _ hl))
    (front.length + (Marker.loopBegin header).chars.length)
  obtain ⟨hbody, hspan⟩ := body_after_marker h hproper
  simp only [constructAt, loopAt, hheader, loopEnd?, loopTurn?_eq_markerAs, drop_marker, hclose,
    hparse, markerSpan_first h, hbody, hspan, hstop]
  rfl

variable {condition : List Char} {parsed : Condition}

private theorem constructAt_conditional_of_no_others (h : EndsAtLine front lineStart)
    (hparse : Condition.parse condition = .ok parsed)
    (hlines : Neutral branchScan turnOfBranch lines)
    (hproper : ∀ line ∈ conditionalLines condition lines none ++ rest, line.IsProper) :
    constructAt (front ++ linesChars (conditionalLines condition lines none ++ rest)) lineStart
        ⟨front.length, front.length + (Marker.ifBegin condition).chars.length, .ifBegin condition⟩
      = .ok (some ⟨front.length, front.length + linesWidth (conditionalLines condition lines none),
          .conditional parsed ⟨linesChars lines, true⟩ ⟨[], true⟩⟩) := by
  have hcode : conditionalLines condition lines none ++ rest
      = .marker (.ifBegin condition) :: (lines ++ .marker .ifEnd :: rest) := by
    simp [conditionalLines]
  have hstop : front.length + linesWidth (conditionalLines condition lines none)
      = front.length + (Marker.ifBegin condition).chars.length + 1 + linesWidth lines
        + Marker.ifEnd.chars.length + 1 := by
    simp [conditionalLines, linesWidth, Line.chars]
    omega
  rw [hcode] at hproper ⊢
  have hcondition : condition.isEmpty = false := by
    have hbegin : IsHeader condition := hproper _ List.mem_cons_self
    simpa using hbegin.nonempty
  -- both branches are neutral: there is no separator, and the end is the marker behind them
  have hends := ifEnds_after_marker hlines
    (fun line hl => hproper line (List.mem_cons_of_mem _ hl))
    (front.length + (Marker.ifBegin condition).chars.length)
  obtain ⟨hbody, hspan⟩ := body_after_marker h hproper
  simp only [constructAt, conditionalAt, hcondition, drop_marker, hends, hparse,
    markerSpan_first h, branches, hbody, hspan, hstop]
  rfl

private theorem constructAt_conditional_of_others (h : EndsAtLine front lineStart)
    (hparse : Condition.parse condition = .ok parsed)
    (hlines : Neutral branchScan turnOfBranch lines)
    (hothers : Neutral branchScan turnOfBranch others)
    (hproper : ∀ line ∈ conditionalLines condition lines (some others) ++ rest, line.IsProper) :
    constructAt (front ++ linesChars (conditionalLines condition lines (some others) ++ rest))
        lineStart
        ⟨front.length, front.length + (Marker.ifBegin condition).chars.length, .ifBegin condition⟩
      = .ok (some ⟨front.length,
          front.length + linesWidth (conditionalLines condition lines (some others)),
          .conditional parsed ⟨linesChars lines, true⟩ ⟨linesChars others, true⟩⟩) := by
  have hcode : conditionalLines condition lines (some others) ++ rest
      = .marker (.ifBegin condition)
        :: (lines ++ .marker .ifElse :: (others ++ .marker .ifEnd :: rest)) := by
    simp [conditionalLines]
  have hstop : front.length + linesWidth (conditionalLines condition lines (some others))
      = front.length + (Marker.ifBegin condition).chars.length + 1 + linesWidth lines
        + Marker.ifElse.chars.length + 1 + linesWidth others + Marker.ifEnd.chars.length + 1 := by
    simp [conditionalLines, linesWidth, Line.chars]
    omega
  rw [hcode] at hproper ⊢
  have hcondition : condition.isEmpty = false := by
    have hbegin : IsHeader condition := hproper _ List.mem_cons_self
    simpa using hbegin.nonempty
  have hends := ifEnds_after_marker_of_separator hlines hothers
    (fun line hl => hproper line (List.mem_cons_of_mem _ hl))
    (front.length + (Marker.ifBegin condition).chars.length)
  obtain ⟨hbody, hspan⟩ := body_after_marker h hproper
  -- the second branch is the body behind the separator, with the first branch in front of it
  have hinit : ∀ line ∈ .marker (.ifBegin condition) :: lines, line.IsProper := fun line hl =>
    hproper line (by
      rcases List.mem_cons.1 hl with rfl | hl
      · exact List.mem_cons_self
      · exact List.mem_cons_of_mem _ (List.mem_append_left _ hl))
  have htail : ∀ line ∈ .marker .ifElse :: (others ++ .marker .ifEnd :: rest), line.IsProper :=
    fun line hl => hproper line (List.mem_cons_of_mem _ (List.mem_append_right _ hl))
  have hfront : (front ++ linesChars (.marker (.ifBegin condition) :: lines)).length
      = front.length + (Marker.ifBegin condition).chars.length + 1 + linesWidth lines := by
    simp [linesWidth, Line.chars]
    omega
  have hsplit : front ++ linesChars (.marker (.ifBegin condition)
        :: (lines ++ .marker .ifElse :: (others ++ .marker .ifEnd :: rest)))
      = (front ++ linesChars (.marker (.ifBegin condition) :: lines))
        ++ linesChars (.marker .ifElse :: (others ++ .marker .ifEnd :: rest)) := by
    simp
  have hsecond := body_after_marker (h.append_lines hinit) htail
  simp only [hfront, ← hsplit] at hsecond
  obtain ⟨hbody', hspan'⟩ := hsecond
  simp only [constructAt, conditionalAt, hcondition, drop_marker, hends, hparse,
    markerSpan_first h, branches, hbody, hspan, hbody', hspan', hstop]
  rfl

theorem constructAt_conditional {branch : Option (List Line)} (h : EndsAtLine front lineStart)
    (hparse : Condition.parse condition = .ok parsed)
    (hlines : Neutral branchScan turnOfBranch lines)
    (hbranch : ∀ others ∈ branch, Neutral branchScan turnOfBranch others)
    (hproper : ∀ line ∈ conditionalLines condition lines branch ++ rest, line.IsProper) :
    constructAt (front ++ linesChars (conditionalLines condition lines branch ++ rest)) lineStart
        ⟨front.length, front.length + (Marker.ifBegin condition).chars.length, .ifBegin condition⟩
      = .ok (some ⟨front.length,
          front.length + linesWidth (conditionalLines condition lines branch),
          .conditional parsed ⟨linesChars lines, true⟩ ⟨linesChars (branch.getD []), true⟩⟩) := by
  cases branch with
  | none => exact constructAt_conditional_of_no_others h hparse hlines hproper
  | some others => exact constructAt_conditional_of_others h hparse hlines (hbranch _ rfl) hproper

/-! ## The first construct -/

theorem nextConstruct?_eq_none {s : List Char} (hs : Quiet s) (front : List Char)
    (lineStart : Bool) : nextConstruct? (front ++ s) lineStart front.length = .ok none := by
  have hfind := find?_append_of_quiet needsComment_opener? hs front.length []
  rw [List.append_nil] at hfind
  rw [nextConstruct?, List.drop_left, hfind]
  rfl

/-- The first construct is the one that the first opening marker starts. -/
theorem nextConstruct?_of_opener {s : List Char} (hs : Quiet s) {m : Marker}
    (hopener : opener? (linesChars (.marker m :: lines)) = some (m, m.chars.length))
    (front : List Char) (lineStart : Bool) :
    nextConstruct? (front ++ s ++ linesChars (.marker m :: lines)) lineStart front.length
      = constructAt (front ++ s ++ linesChars (.marker m :: lines)) lineStart
        ⟨(front ++ s).length, (front ++ s).length + m.chars.length, m⟩ := by
  have hfind := find?_append_of_quiet needsComment_opener? hs front.length
    (linesChars (.marker m :: lines))
  -- nothing opens in the text in front, and the marker opens where it starts
  have hhead : find? opener? (front ++ s).length (linesChars (.marker m :: lines))
      = some ⟨(front ++ s).length, (front ++ s).length + m.chars.length, m⟩ := by
    rw [linesChars_cons, Line.chars, m.chars_eq_cons] at hopener ⊢
    simp only [List.cons_append] at hopener ⊢
    rw [find?, hopener]
  rw [← List.length_append, hhead] at hfind
  rw [nextConstruct?, List.append_assoc, List.drop_left, hfind]

/-- The beginning of a loop or of a conditional, which is an opener without more ado. -/
def Marker.opensAlways : Marker → Bool
  | loopBegin _ | ifBegin _ => true
  | _ => false

theorem opener?_chars (hm : m.IsProper) (hopens : m.opensAlways = true) (lines : List Line) :
    opener? (linesChars (.marker m :: lines)) = some (m, m.chars.length) := by
  rw [linesChars_cons, Line.chars, List.append_assoc, opener?, marker?_chars hm]
  cases m with
  | loopBegin header => rfl
  | ifBegin condition => rfl
  | _ => exact absurd hopens Bool.false_ne_true

theorem opener?_blockBegin {name : List Char}
    (hlines : Neutral closing? (turnOfBlock name) lines)
    (hproper : ∀ line ∈ blockLines name lines ++ rest, line.IsProper) :
    opener? (linesChars (blockLines name lines ++ rest))
      = some (.blockBegin name, (Marker.blockBegin name).chars.length) := by
  have hcode : blockLines name lines ++ rest
      = .marker (.blockBegin name) :: (lines ++ .marker (.blockEnd name) :: rest) := by
    simp [blockLines]
  rw [hcode] at hproper ⊢
  have hm : (Marker.blockBegin name).IsProper := hproper _ List.mem_cons_self
  -- a block opens only if it has an end, and the marker behind the body is one
  have hclose := closing?_after_marker hlines (m := .blockEnd name) (if_pos rfl)
    (fun line hl => hproper line (List.mem_cons_of_mem _ hl)) 0
  rw [linesChars_cons, Line.chars, List.append_assoc, List.singleton_append]
  simp only [opener?, marker?_chars hm, List.drop_left, blockEnd?, blockTurn?_eq_markerAs, hclose,
    Option.isSome_some, if_true]

variable {s : List Char}

/-- A block behind text without comments. -/
theorem nextConstruct?_block (hs : Quiet s) (h : EndsAtLine (front ++ s) lineStart)
    {name : List Char} (hlines : Neutral closing? (turnOfBlock name) lines)
    (hproper : ∀ line ∈ blockLines name lines ++ rest, line.IsProper) :
    nextConstruct? (front ++ s ++ linesChars (blockLines name lines ++ rest)) lineStart
        front.length
      = .ok (some ⟨(front ++ s).length, (front ++ s).length + linesWidth (blockLines name lines),
          .block (String.ofList name) ⟨linesChars lines, true⟩⟩) :=
  (nextConstruct?_of_opener hs (opener?_blockBegin hlines hproper) front lineStart).trans
    (constructAt_block h hlines hproper)

/-- A loop behind text without comments. -/
theorem nextConstruct?_loop (hs : Quiet s) (h : EndsAtLine (front ++ s) lineStart)
    {header : List Char} {parsed : LoopHeader} (hparse : LoopHeader.parse? header = some parsed)
    (hlines : Neutral closing? turnOfLoop lines)
    (hproper : ∀ line ∈ loopLines header lines ++ rest, line.IsProper) :
    nextConstruct? (front ++ s ++ linesChars (loopLines header lines ++ rest)) lineStart
        front.length
      = .ok (some ⟨(front ++ s).length, (front ++ s).length + linesWidth (loopLines header lines),
          .loop parsed ⟨linesChars lines, true⟩⟩) :=
  have hm : (Marker.loopBegin header).IsProper := hproper _ List.mem_cons_self
  (nextConstruct?_of_opener hs (opener?_chars hm rfl _) front lineStart).trans
    (constructAt_loop h hparse hlines hproper)

/-- A conditional behind text without comments. -/
theorem nextConstruct?_conditional {branch : Option (List Line)} (hs : Quiet s)
    (h : EndsAtLine (front ++ s) lineStart) (hparse : Condition.parse condition = .ok parsed)
    (hlines : Neutral branchScan turnOfBranch lines)
    (hbranch : ∀ others ∈ branch, Neutral branchScan turnOfBranch others)
    (hproper : ∀ line ∈ conditionalLines condition lines branch ++ rest, line.IsProper) :
    nextConstruct? (front ++ s ++ linesChars (conditionalLines condition lines branch ++ rest))
        lineStart front.length
      = .ok (some ⟨(front ++ s).length,
          (front ++ s).length + linesWidth (conditionalLines condition lines branch),
          .conditional parsed ⟨linesChars lines, true⟩ ⟨linesChars (branch.getD []), true⟩⟩) := by
  have hm : (Marker.ifBegin condition).IsProper := by
    cases branch <;> exact hproper _ List.mem_cons_self
  have hat := constructAt_conditional h hparse hlines hbranch hproper
  cases branch with
  | none =>
    exact (nextConstruct?_of_opener hs (opener?_chars hm rfl _) front lineStart).trans hat
  | some others =>
    exact (nextConstruct?_of_opener hs (opener?_chars hm rfl _) front lineStart).trans hat

end BlockTemplate
