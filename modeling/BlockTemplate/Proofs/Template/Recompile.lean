import BlockTemplate.Proofs.Template.Written

/-!
# Compiling what has been compiled

The text in which the parts of a unit are written compiles again, with the same blocks. The text is
compiled behind whatever has been compiled before, and it may be cut off at the end by blanks that
belong to a marker behind it. What is shown of the source is carried over part by part, from the
last part to the first.

## Key results

- `UnitPart.isWritten_block`, `UnitPart.isWritten_loop`, `UnitPart.isWritten_branches`: a construct
  is found again as it is written
- `isWrittenAs_of_compilesTo`: the parts of a compiled unit are written so that they compile again
-/

namespace BlockTemplate

/-! ## Blocks with their paths -/

/-- Whether an index has the full names of blocks and, if the gaps between them are kept, their
    paths. -/
structure Reindexes (blocks : List (BlockPath × Node)) (kept : Bool)
    (index : List (String × BlockPath)) : Prop where
  names : index.map (·.1) = fullNames blocks
  paths : kept → index = namedPaths blocks

namespace Reindexes

variable {blocks more : List (BlockPath × Node)} {kept kept' : Bool}
  {index index' : List (String × BlockPath)}

theorem nil : Reindexes [] kept [] := ⟨rfl, fun _ => rfl⟩

theorem append (h : Reindexes blocks kept index) (hmore : Reindexes more kept' index') :
    Reindexes (blocks ++ more) (kept && kept') (index ++ index') where
  names := by rw [List.map_append, h.names, hmore.names, fullNames_append]
  paths hkept := by
    rw [Bool.and_eq_true] at hkept
    rw [h.paths hkept.1, hmore.paths hkept.2, namedPaths_append]

theorem cons (h : Reindexes blocks kept index) (path : BlockPath) (node : Node) :
    Reindexes ((path, node) :: blocks) kept ((fullName path, path) :: index) where
  names := congrArg (fullName path :: ·) h.names
  paths hkept := congrArg ((fullName path, path) :: ·) (h.paths hkept)

/-- Blocks with other paths have the same index as far as this is told. -/
theorem congr (h : Reindexes more kept' index) (hnames : fullNames blocks = fullNames more)
    (hkept : kept → blocks = more ∧ kept') : Reindexes blocks kept index where
  names := by rw [h.names, hnames]
  paths hk := by rw [h.paths (hkept hk).2, (hkept hk).1]

end Reindexes

/-! ## What may be cut off -/

theorem isMargin_of_isIndent {c : Char} (h : isIndent c) : isMargin c := by
  simp only [isIndent, Bool.or_eq_true, beq_iff_eq] at h
  rcases h with rfl | rfl <;> decide

section
variable {trail : List Char} (h : ∀ c ∈ trail, isMargin c)

include h

theorem not_mem_of_isMargin {c : Char} (hc : isMargin c = false) : c ∉ trail := by
  intro hmem
  rw [h c hmem] at hc
  exact nomatch hc

theorem quiet_of_isMargin : Quiet trail :=
  quiet_of_not_mem (not_mem_of_isMargin h (by decide))

theorem staysApart_of_isMargin : StaysApart trail := by
  intro c hc
  have hmem := List.mem_of_mem_head? hc
  constructor
  · rintro rfl
    exact not_mem_of_isMargin h (by decide) hmem
  · rintro rfl
    exact not_mem_of_isMargin h (by decide) hmem

/-- What may be cut off has no markers. -/
theorem itemsIn_of_append_margin {α : Type} (f : Marker → Option α) {s : List Char}
    (hs : closesComments (s ++ trail)) : itemsIn f (s ++ trail) = itemsIn f s := by
  have hshort := closesComments_of_append_of_not_mem hs (not_mem_of_isMargin h (by decide))
  rw [itemsIn_append f hshort (staysApart_of_isMargin h), (quiet_of_isMargin h).itemsIn_eq_nil,
    List.append_nil]

/-- What is cut off behind a marker is what stands behind its line, or its line break, too. -/
theorem exists_tail {core text s rest : List Char} (hcore : ∃ init, core = init ++ ['>'])
    (hs : s ++ trail = text ++ (core ++ '\n' :: rest)) :
    ∃ tail, s = text ++ (core ++ tail) ∧ tail ++ trail = '\n' :: rest := by
  rw [← List.append_assoc] at hs
  rcases List.append_eq_append_iff.1 hs with ⟨cutOff, hsplit, htrail⟩ | ⟨tail, htail, hrest⟩
  · -- the last character of the marker is not cut off
    obtain ⟨init, rfl⟩ := hcore
    rcases List.eq_nil_or_concat cutOff with rfl | ⟨more, c, rfl⟩
    · rw [List.append_nil] at hsplit
      exact ⟨[], by rw [List.append_nil, hsplit], by rw [htrail]; rfl⟩
    · have hlast := congrArg List.getLast? hsplit
      rw [List.concat_eq_append, ← List.append_assoc, ← List.append_assoc, List.getLast?_concat,
        List.getLast?_concat] at hlast
      cases hlast
      refine absurd ?_ (not_mem_of_isMargin h (c := '>') (by decide))
      rw [htrail]
      simp
  · exact ⟨tail, by rw [htail, List.append_assoc], hrest.symm⟩

end

/-! ## Compiling written parts -/

/-- Whether the text in which parts are written compiles to their blocks, behind any text and with
    blanks cut off at its end. -/
def Recompiles (parts : List UnitPart) : Prop :=
  ∀ {front s trail : List Char} {lineStart shares : Bool},
    EndsAtLine (front ++ keptBreak shares) lineStart → s ++ trail = partsWritten parts →
    (∀ c ∈ trail, isMargin c) → ∀ (path : BlockPath) (number : Nat),
      ∃ u, compileFrom (front ++ (keptBreak shares ++ s)) path lineStart front.length number = .ok u
        ∧ Reindexes (partsBlocks path number parts) (partsKeepGaps shares [] parts) u.index

/-- Where no marker is written there are no blocks. -/
theorem partsBlocks_eq_nil (path : BlockPath) (number : Nat) {parts : List UnitPart}
    (h : '<' ∉ partsWritten parts) : partsBlocks path number parts = [] := by
  induction parts generalizing number with
  | nil => rfl
  | cons part rest ih =>
    rw [partsWritten, List.mem_append, not_or] at h
    rw [partsBlocks, ih _ h.2, List.append_nil]
    cases part with
    | text chars => rfl
    | block name markers body => exact absurd List.mem_cons_self h.1
    | loop header markers body => exact absurd List.mem_cons_self h.1
    | conditional condition markers ifBody elseBody =>
      refine absurd ?_ h.1
      simp only [UnitPart.written]
      split <;> exact List.mem_cons_self

theorem quiet_keptBreak (shares : Bool) : Quiet (keptBreak shares) := by
  cases shares
  · trivial
  · exact quiet_newline

theorem endsAtLine_keptBreak (shares : Bool) : EndsAtLine ([] ++ keptBreak shares) (!shares) := by
  cases shares <;> rfl

/-- The body of a written construct. -/
theorem Recompiles.body {parts : List UnitPart} (h : Recompiles parts) (shares : Bool)
    (path : BlockPath) :
    ∃ u, compileFrom (keptBreak shares ++ beforeMarker (partsWritten parts)) path (!shares) 0 0
        = .ok u
      ∧ Reindexes (partsBlocks path 0 parts) (partsKeepGaps shares [] parts) u.index := by
  obtain ⟨trail, htrail, hindent⟩ := exists_eq_beforeMarker_append (partsWritten parts)
  exact h (endsAtLine_keptBreak shares) htrail.symm
    (fun c hc => isMargin_of_isIndent (hindent c hc)) path 0

section
variable {front text tail : List Char}

/-- Where nothing is left there is nothing to compile. -/
theorem compileFrom_end (code : List Char) (path : BlockPath) (lineStart : Bool) (number : Nat) :
    compileFrom code path lineStart code.length number = .ok ⟨[], []⟩ := by
  have hnone : nextConstruct? code lineStart code.length = .ok none := by
    rw [nextConstruct?, List.drop_length]
    rfl
  rw [compileFrom_of_none hnone, List.drop_length]
  rfl

/-- The rest of a unit behind a written marker. -/
theorem Recompiles.behind {parts : List UnitPart} (h : Recompiles parts)
    {trail : List Char} (htrail : ∀ c ∈ trail, isMargin c)
    (htail : tail ++ trail = '\n' :: partsWritten parts) (front : List Char) (path : BlockPath)
    (lineStart shares : Bool) (number : Nat) :
    ∃ u, compileFrom (front ++ tail) path lineStart
        (front.length + takenBreak shares tail) number = .ok u
      ∧ Reindexes (partsBlocks path number parts) (partsKeepGaps shares [] parts) u.index := by
  cases tail with
  | nil =>
    -- all that is left has been cut off, so that it has no blocks
    have hempty : partsBlocks path number parts = [] := by
      refine partsBlocks_eq_nil path number fun hmem => ?_
      rw [List.nil_append] at htail
      have hmargin := htrail '<' (htail ▸ List.mem_cons_of_mem _ hmem)
      exact absurd hmargin (by decide)
    rw [List.append_nil, hempty]
    have hlength : front.length + takenBreak shares [] = front.length := by cases shares <;> rfl
    rw [hlength]
    exact ⟨_, compileFrom_end front path lineStart number, Reindexes.nil⟩
  | cons c s =>
    obtain ⟨rfl, hs⟩ := List.cons.inj htail
    cases shares with
    | true =>
      have hline : EndsAtLine (front ++ keptBreak true) lineStart := endsAtLine_of_newline _ _
      obtain ⟨u, hu, hindex⟩ := h hline hs htrail path number
      exact ⟨u, hu, hindex⟩
    | false =>
      have hline : EndsAtLine (front ++ ['\n'] ++ keptBreak false) lineStart := by
        rw [keptBreak, if_neg Bool.false_ne_true, List.append_nil]
        exact endsAtLine_of_newline _ _
      obtain ⟨u, hu, hindex⟩ := h hline hs htrail path number
      rw [List.append_assoc, List.length_append] at hu
      exact ⟨u, hu, hindex⟩

/-- The text between two constructs, as it is compiled again. -/
theorem slice_gap (front text rest : List Char) (shares : Bool) :
    slice (front ++ keptBreak shares ++ text ++ rest) front.length
        (front ++ keptBreak shares ++ beforeMarker text).length
      = keptBreak shares ++ beforeMarker text := by
  obtain ⟨trail, htrail, -⟩ := exists_eq_beforeMarker_append text
  have hcode : front ++ keptBreak shares ++ text ++ rest
      = front ++ ((keptBreak shares ++ beforeMarker text) ++ (trail ++ rest)) := by
    rw [List.append_assoc (keptBreak shares), ← List.append_assoc (beforeMarker text), ← htrail]
    simp only [List.append_assoc]
  have hlength : (front ++ keptBreak shares ++ beforeMarker text).length
      = front.length + (keptBreak shares ++ beforeMarker text).length := by
    rw [List.append_assoc, List.length_append]
  rw [hcode, hlength, slice_append]

/-- The first construct in a written text is the one that its first opening marker starts. -/
theorem nextConstruct?_written {marker rest : List Char} {m : Marker}
    (hlacks : Lacks opener? (marker ++ rest) text) (hmarker : IsComment marker m)
    (hopener : opener? (marker ++ rest) = some (m, marker.length)) (front : List Char)
    (shares lineStart : Bool) :
    nextConstruct? (front ++ keptBreak shares ++ text ++ (marker ++ rest)) lineStart front.length
      = constructAt (front ++ keptBreak shares ++ text ++ (marker ++ rest)) lineStart
        ⟨(front ++ keptBreak shares ++ text).length,
          (front ++ keptBreak shares ++ text).length + marker.length, m⟩ := by
  have hgap := hlacks.append_of_quiet needsComment_opener? (quiet_keptBreak shares)
  rw [List.append_assoc front]
  exact nextConstruct?_of_lacks hgap hmarker hopener front lineStart

end

/-! ## Constructs -/

/-- Whether a construct that stands in the source is written as `core` and a line break, so that it
    is found again. -/
structure UnitPart.IsWritten (part : UnitPart) (source core : List Char) : Prop where
  isConstruct : part.isConstruct
  written_eq : part.written = core ++ ['\n']
  core_eq : ∃ init, core = init ++ ['>']
  staysApart : ∀ rest, StaysApart (source ++ rest)
  staysApart_core : ∀ rest, StaysApart (core ++ rest)
  isRewriting : ∀ {rest rest'}, IsRewriting rest rest' →
    IsRewriting (source ++ rest) (core ++ '\n' :: rest')
  /-- Behind text without constructs the construct is compiled, and then the rest. -/
  compiles : ∀ {front text tail : List Char} {lineStart shares : Bool},
    EndsAtLine (front ++ keptBreak shares) lineStart → BreaksLine tail →
    Lacks opener? (core ++ tail) text → ∀ (path : BlockPath) (number : Nat) {rest : CompiledUnit},
    let next := number + (dataEntries number (keptBreak shares ++ beforeMarker text)).length
    let code := front ++ keptBreak shares ++ text ++ (core ++ tail)
    compileFrom code path lineStart
        ((front ++ keptBreak shares ++ text ++ core).length + takenBreak part.endShares tail)
        (part.nextNumber next) = .ok rest →
      ∃ u index, compileFrom code path lineStart front.length number = .ok u
        ∧ u.index = index ++ rest.index
        ∧ Reindexes (part.blocks (path ++ [part.key next])) (part.keepsGaps (sharesLine text)) index

/-- What is written is a body where the source is one. -/
theorem IsRewriting.isBody {source written : List Char} (h : IsRewriting source written)
    {f : Marker → Option Turn} (hf : IsCoarse f) (hbody : IsBody Turn.next f source) :
    IsBody Turn.next f written :=
  ⟨h.closes_written, by rw [h.items f hf]; exact hbody.level⟩

theorem IsRewriting.isBody_of_branch {source written : List Char} (h : IsRewriting source written)
    (hbody : IsBody BranchTurn.next turnOfBranch source) :
    IsBody BranchTurn.next turnOfBranch written :=
  ⟨h.closes_written, h.levels _ _ hbody.level⟩

theorem isCoarse_turnOfBlock (name : List Char) : IsCoarse (turnOfBlock name) :=
  ⟨fun _ _ => rfl, rfl⟩

theorem isCoarse_turnOfLoop : IsCoarse turnOfLoop := ⟨fun _ _ => rfl, rfl⟩

section
variable {ms : Markers} {body : Body} {inner : List UnitPart}

theorem Markers.staysApart_fill {m : Marker} (h : ms.opening.IsOf m) (hapart : ms.opening.isApart)
    (kind : ConstructKind) (rest : List Char) : StaysApart (ms.fill kind ++ rest) := by
  cases kind with
  | _ =>
    simp only [fill, List.append_assoc]
    exact h.staysApart hapart _

/-- A block is found again as it is written. -/
theorem UnitPart.isWritten_block {name : String} (hms : ms.AreOfBlock name) (hapart : ms.areApart)
    (hbody : IsBody Turn.next (turnOfBlock name.toList) body.code)
    (hinner : IsRewriting body.code (partsWritten inner)) (hcompiles : Recompiles inner) :
    (UnitPart.block name ms inner).IsWritten (ms.fill (.block name body))
      (enclosed (.blockBegin name.toList) (.blockEnd name.toList) (partsWritten inner)) := by
  obtain ⟨hopening, -, hclosing⟩ := Markers.areApart_iff.1 hapart
  have hname : IsName name.toList := hms.1.isName_of_blockBegin
  have hbegin : (Marker.blockBegin name.toList).IsProper := hname
  have hend : (Marker.blockEnd name.toList).IsProper := hname
  have hwritten := hinner.isBody (isCoarse_turnOfBlock name.toList) hbody
  refine ⟨rfl, rfl, exists_enclosed_eq _ _ _, ms.staysApart_fill hms.1 hopening _,
    staysApart_enclosed _ _ _,
    hinner.enclose hms.1 hopening hms.2 hclosing hbegin (.inl rfl) hend (.inl rfl), ?_⟩
  intro front text tail lineStart shares hfront htail hlacks path number rest next code hrest
  have hopens := opener?_written_block hname hwritten tail
  rw [enclosed_append] at hlacks hopens
  have hnext := nextConstruct?_written hlacks hbegin.isComment hopens front shares lineStart
  rw [← enclosed_append, constructAt_written_block hfront htail hname hwritten,
    String.ofList_toList] at hnext
  obtain ⟨u, hu, hindex⟩ := hcompiles.body (sharesLine text) (path ++ [.text name])
  have hcompile := compileFrom_of_block hnext hu (by rw [slice_gap]; exact hrest)
  have hblock := hindex.cons (path ++ [.text name]) (UnitPart.block name ms inner).node
  exact ⟨_, _, hcompile, rfl, hblock⟩

/-- A loop is found again as it is written. -/
theorem UnitPart.isWritten_loop {header : LoopHeader} (hms : ms.AreOfLoop header)
    (hapart : ms.areApart) (hbody : IsBody Turn.next turnOfLoop body.code)
    (hinner : IsRewriting body.code (partsWritten inner)) (hcompiles : Recompiles inner) :
    (UnitPart.loop header ms inner).IsWritten (ms.fill (.loop header body))
      (enclosed (.loopBegin header.toSource.toList) .loopEnd (partsWritten inner)) := by
  obtain ⟨hopening, -, hclosing⟩ := Markers.areApart_iff.1 hapart
  obtain ⟨⟨source, hparse, hopen⟩, hclose⟩ := hms
  obtain ⟨hstart, hend⟩ := hopen.occursIn_eq_false_of_loopBegin hopening
  have hheader := LoopHeader.isCanonical_of_parse? hparse hstart hend
  have hbegin : (Marker.loopBegin header.toSource.toList).IsProper := hheader.isHeader
  have hwritten := hinner.isBody isCoarse_turnOfLoop hbody
  refine ⟨rfl, rfl, exists_enclosed_eq _ _ _, ms.staysApart_fill hopen hopening _,
    staysApart_enclosed _ _ _,
    hinner.enclose hopen hopening hclose hclosing hbegin (.inr ⟨⟨_, rfl⟩, _, rfl⟩) trivial
      (.inl rfl), ?_⟩
  -- compiled again: the loop is the next construct, and its body and the rest are compiled in turn
  intro front text tail lineStart shares hfront htail hlacks path number rest next code hrest
  have hopens := opener?_of_opensAlways hbegin.isComment rfl
    ('\n' :: (partsWritten inner ++ (Marker.loopEnd.chars ++ tail)))
  rw [enclosed_append] at hlacks
  have hnext := nextConstruct?_written hlacks hbegin.isComment hopens front shares lineStart
  rw [← enclosed_append, constructAt_written_loop hfront htail hheader.isHeader.nonempty
    hheader.parse?_toSource hwritten] at hnext
  obtain ⟨u, hu, hindex⟩ := hcompiles.body (sharesLine text) (path ++ [.int ↑next])
  have hcompile := compileFrom_of_loop hnext (by rw [slice_gap]; exact hu)
    (by rw [slice_gap]; exact hrest)
  exact ⟨_, u.index, hcompile, rfl, hindex⟩

section
variable {condition : Condition} {others : Body} {elseParts : List UnitPart}

/-- What the beginning of a conditional says can be written again. -/
theorem isHeader_of_areOfConditional (hms : ms.AreOfConditional condition)
    (hapart : ms.opening.isApart) (hsource : condition.source.shown ≠ "") :
    ms.opening.IsOf (.ifBegin condition.source.shown.toList)
      ∧ Condition.parse condition.source.shown.toList = .ok condition
      ∧ IsHeader condition.source.shown.toList := by
  obtain ⟨⟨source, hparse, hopen⟩, -, -⟩ := hms
  obtain rfl := Condition.shown_of_parse hparse
  exact ⟨hopen, hparse, hopen.isHeader_of_ifBegin hapart (by simpa using hsource)⟩

/-- A conditional with nothing in its second branch is found again as it is written. -/
theorem UnitPart.isWritten_conditional_nil (hms : ms.AreOfConditional condition)
    (hapart : ms.areApart) (hsource : condition.source.shown ≠ "")
    (hseparated : ms.separator = none → others.code = [])
    (hbody : IsBody BranchTurn.next turnOfBranch body.code)
    (hinner : IsRewriting body.code (partsWritten inner)) (hothers : IsRewriting others.code [])
    (hcompiles : Recompiles inner) :
    (UnitPart.conditional condition ms inner []).IsWritten
      (ms.fill (.conditional condition body others))
      (enclosed (.ifBegin condition.source.shown.toList) .ifEnd (partsWritten inner)) := by
  obtain ⟨hopening, hseparator, hclosing⟩ := Markers.areApart_iff.1 hapart
  obtain ⟨hopen, hparse, hheader⟩ := isHeader_of_areOfConditional hms hopening hsource
  obtain ⟨-, hbetween, hclose⟩ := hms
  have hbegin : (Marker.ifBegin condition.source.shown.toList).IsProper := hheader
  have hproper : Marker.ifEnd.IsProper := trivial
  have hwritten := hinner.isBody_of_branch hbody
  refine ⟨rfl, rfl, exists_enclosed_eq _ _ _, ms.staysApart_fill hopen hopening _,
    staysApart_enclosed _ _ _, fun {rest rest'} hrest => ?_, ?_⟩
  · cases hsep : ms.separator with
    | none =>
      have hnothing := hseparated hsep
      rw [Markers.fill, Markers.separatorChars, hsep, hnothing, Option.elim_none, List.append_nil,
        List.append_nil]
      exact hinner.enclose hopen hopening hclose hclosing hbegin (.inl rfl) hproper (.inl rfl) hrest
    | some e =>
      -- the separator is not written, for nothing is behind it
      have hend := hothers.append (hrest.marker hclose hclosing hproper (.inl rfl))
        (hclose.staysApart hclosing _) (staysApart_cons (by decide) _)
      have hdrop := hinner.drop_separator hopen hopening (hbetween e hsep) (hseparator e hsep)
        hbegin hbody hend (staysApart_cons (by decide) _)
      rw [Markers.fill, Markers.separatorChars, hsep, enclosed_append]
      simpa only [List.append_assoc, Option.elim_some, List.nil_append] using hdrop
  · intro front text tail lineStart shares hfront htail hlacks path number rest next code hrest
    have hopens := opener?_of_opensAlways hbegin.isComment rfl
      ('\n' :: (partsWritten inner ++ (Marker.ifEnd.chars ++ tail)))
    rw [enclosed_append] at hlacks
    have hnext := nextConstruct?_written hlacks hbegin.isComment hopens front shares lineStart
    rw [← enclosed_append, constructAt_written_conditional hfront htail hheader.nonempty hparse
      hwritten] at hnext
    obtain ⟨u, hu, hindex⟩ := hcompiles.body (sharesLine text) (path ++ [.int ↑next] ++ [.int 0])
    have hnone := compileFrom_end [] (path ++ [.int ↑next] ++ [.int 1]) true 0
    have hcompile := compileFrom_of_conditional hnext (by rw [slice_gap]; exact hu)
      (by rw [slice_gap]; exact hnone) (by rw [slice_gap]; exact hrest)
    exact ⟨_, u.index ++ [], hcompile, rfl, hindex.append Reindexes.nil⟩

/-- A conditional with two branches is found again as it is written. -/
theorem UnitPart.isWritten_branches (hms : ms.AreOfConditional condition)
    (hapart : ms.areApart) (hsource : condition.source.shown ≠ "") (hne : elseParts ≠ [])
    {e : Extent} (hsep : ms.separator = some e)
    (hbody : IsBody BranchTurn.next turnOfBranch body.code)
    (helse : IsBody BranchTurn.next turnOfBranch others.code)
    (hinner : IsRewriting body.code (partsWritten inner))
    (hothers : IsRewriting others.code (partsWritten elseParts))
    (hcompiles : Recompiles inner) (hcompiles' : Recompiles elseParts) :
    (UnitPart.conditional condition ms inner elseParts).IsWritten
      (ms.fill (.conditional condition body others))
      ((Marker.ifBegin condition.source.shown.toList).chars
        ++ '\n' :: (partsWritten inner ++ enclosed .ifElse .ifEnd (partsWritten elseParts))) := by
  obtain ⟨hopening, hseparator, hclosing⟩ := Markers.areApart_iff.1 hapart
  obtain ⟨hopen, hparse, hheader⟩ := isHeader_of_areOfConditional hms hopening hsource
  obtain ⟨-, hbetween, hclose⟩ := hms
  have hbegin : (Marker.ifBegin condition.source.shown.toList).IsProper := hheader
  have hwritten := hinner.isBody_of_branch hbody
  have hwritten' := hothers.isBody_of_branch helse
  have hproper : Marker.ifElse.IsProper := trivial
  have hproper' : Marker.ifEnd.IsProper := trivial
  have hempty : elseParts.isEmpty = false := by simpa using hne
  refine ⟨rfl, ?_, ?_, ms.staysApart_fill hopen hopening _, fun _ => staysApart_cons (by decide) _,
    fun {rest rest'} hrest => ?_, ?_⟩
  · rw [UnitPart.written]
    simp only [hempty, Bool.false_eq_true, if_false]
  · obtain ⟨init, hinit⟩ := exists_enclosed_eq .ifElse .ifEnd (partsWritten elseParts)
    refine ⟨(Marker.ifBegin condition.source.shown.toList).chars
      ++ '\n' :: (partsWritten inner ++ init), ?_⟩
    rw [hinit]
    simp only [List.append_assoc, List.cons_append]
  · -- the text is rewritten from the separator on, and then from the opening marker on
    have hsecond := hothers.enclose (hbetween e hsep) (hseparator e hsep) hclose hclosing
      hproper (.inl rfl) hproper' (.inl rfl) hrest
    have hfirst := hinner.append hsecond
      (by
        rw [List.append_assoc, List.append_assoc]
        exact (hbetween e hsep).staysApart (hseparator e hsep) _)
      (staysApart_enclosed _ _ _ _)
    have hall := hfirst.marker hopen hopening hbegin (.inl rfl)
    rw [Markers.fill, Markers.separatorChars, hsep]
    simpa only [List.append_assoc, List.cons_append, Option.elim_some] using hall
  · -- compiled again: the two branches and the rest in turn
    intro front text tail lineStart shares hfront htail hlacks path number rest next code hrest
    have hopens := opener?_of_opensAlways hbegin.isComment rfl
      ('\n' :: (partsWritten inner ++ enclosed .ifElse .ifEnd (partsWritten elseParts)) ++ tail)
    rw [List.append_assoc (Marker.chars _)] at hlacks
    have hnext := nextConstruct?_written hlacks hbegin.isComment hopens front shares lineStart
    rw [← List.append_assoc (Marker.chars _), constructAt_written_branches hfront htail
      hheader.nonempty hparse hwritten hwritten'] at hnext
    have hshares : (UnitPart.conditional condition ms inner elseParts).endShares
        = sharesLine (partsWritten elseParts) := by
      simp only [UnitPart.endShares, hempty, Bool.false_eq_true, if_false]
    rw [hshares] at hrest
    obtain ⟨u, hu, hindex⟩ := hcompiles.body (sharesLine text) (path ++ [.int ↑next] ++ [.int 0])
    obtain ⟨v, hv, hindex'⟩ := hcompiles'.body (sharesLine (partsWritten inner))
      (path ++ [.int ↑next] ++ [.int 1])
    have hcompile := compileFrom_of_conditional hnext (by rw [slice_gap]; exact hu)
      (by rw [slice_gap]; exact hv) (by rw [slice_gap]; exact hrest)
    exact ⟨_, u.index ++ v.index, hcompile, rfl, hindex.append hindex'⟩

/-- A conditional is found again as it is written, whether or not its second branch is. -/
theorem UnitPart.exists_isWritten_conditional (hms : ms.AreOfConditional condition)
    (hapart : ms.areApart) (hsource : condition.source.shown ≠ "")
    (hseparated : ms.separator = none → others.code = [])
    (hbody : IsBody BranchTurn.next turnOfBranch body.code)
    (helse : IsBody BranchTurn.next turnOfBranch others.code)
    (hparts : partsFrom others.code others.lineStart 0 = .ok elseParts)
    (hinner : IsRewriting body.code (partsWritten inner))
    (hothers : IsRewriting others.code (partsWritten elseParts))
    (hcompiles : Recompiles inner) (hcompiles' : Recompiles elseParts) :
    ∃ core, (UnitPart.conditional condition ms inner elseParts).IsWritten
      (ms.fill (.conditional condition body others)) core := by
  cases elseParts with
  | nil =>
    exact ⟨_, isWritten_conditional_nil hms hapart hsource hseparated hbody hinner hothers
      hcompiles⟩
  | cons part elseParts =>
    cases hseparator : ms.separator with
    | none =>
      -- without a separator there is no second branch
      rw [hseparated hseparator, partsFrom_of_none rfl] at hparts
      cases hparts
    | some e =>
      exact ⟨_, isWritten_branches hms hapart hsource (List.cons_ne_nil _ _) hseparator hbody helse
        hinner hothers hcompiles hcompiles'⟩

end

end

/-! ## Units -/

theorem length_dataEntries {number number' : Nat} {text text' : List Char}
    (h : text.isEmpty = text'.isEmpty) :
    (dataEntries number text).length = (dataEntries number' text').length := by
  rw [dataEntries, dataEntries, h]
  split
  · rfl
  · rfl

/-- Whether a source may be written as parts, so that it compiles to their blocks. -/
structure IsWrittenAs (source : List Char) (parts : List UnitPart) : Prop where
  isRewriting : IsRewriting source (partsWritten parts)
  recompiles : Recompiles parts

/-- Text without constructs is written as it stands. -/
theorem isWrittenAs_textParts {text : List Char} (hcloses : closesComments text)
    (hlacks : Lacks opener? [] text) : IsWrittenAs text (textParts text) := by
  have hwritten : partsWritten (textParts text) = text := by
    have happend := partsWritten_textParts_append text []
    rwa [List.append_nil, partsWritten, List.append_nil] at happend
  constructor
  · rw [hwritten]
    exact IsRewriting.refl hcloses
  · intro front s trail lineStart shares _ hs htrail path number
    rw [hwritten] at hs
    subst hs
    have hshort := closesComments_of_append_of_not_mem hcloses
      (not_mem_of_isMargin htrail (by decide))
    have hlacks' : Lacks opener? (trail ++ []) s := hlacks.of_append
    rw [List.append_nil] at hlacks'
    -- what is behind the text is blank, so that nothing opens without it either
    have hnone : Lacks opener? [] s := by
      refine lacks_opener_congr hshort (staysApart_of_isMargin htrail) staysApart_nil
        (fun name => ?_) hlacks'
      rw [(quiet_of_isMargin htrail).itemsIn_eq_nil]
      rfl
    have hnext := nextConstruct?_of_lacks_nil
      (hnone.append_of_quiet needsComment_opener? (quiet_keptBreak shares)) front lineStart
    refine ⟨_, compileFrom_of_none hnext, ?_⟩
    have hblocks := partsBlocks_textParts_append path number (s ++ trail) []
    rw [List.append_nil] at hblocks
    rw [hblocks]
    exact ⟨rfl, fun _ => rfl⟩

/-- One more construct, with the literal text in front of it. -/
theorem IsWrittenAs.cons {part : UnitPart} {text source core more : List Char}
    {parts : List UnitPart} (h : part.IsWritten source core) (hcloses : closesComments text)
    (hlacks : Lacks opener? (source ++ more) text) (hmore : IsWrittenAs more parts) :
    IsWrittenAs (text ++ (source ++ more)) (textParts text ++ part :: parts) := by
  have hwritten : partsWritten (textParts text ++ part :: parts)
      = text ++ (core ++ '\n' :: partsWritten parts) := by
    rw [partsWritten_textParts_append, partsWritten, h.written_eq, List.append_assoc,
      List.singleton_append]
  have hrewriting := h.isRewriting hmore.isRewriting
  constructor
  · rw [hwritten]
    exact (IsRewriting.refl hcloses).append hrewriting (h.staysApart _) (h.staysApart_core _)
  · intro front s trail lineStart shares hfront hs htrail path number
    rw [hwritten] at hs
    obtain ⟨tail, rfl, htail⟩ := exists_tail htrail h.core_eq hs
    have hbreaks : BreaksLine tail := by
      cases tail with
      | nil => exact .inl rfl
      | cons c tail => exact (List.cons.inj htail).1 ▸ breaksLine_cons tail
    -- the markers behind the text are those of the source, so that nothing starts in the text
    have hitems (name : List Char) : itemsIn (turnOfBlock name) (core ++ tail)
        = itemsIn (turnOfBlock name) (source ++ more) := by
      have hcut := itemsIn_of_append_margin htrail (turnOfBlock name) (s := core ++ tail)
        (by rw [List.append_assoc, htail]; exact hrewriting.closes_written)
      rw [← hcut, List.append_assoc, htail, hrewriting.items _ (isCoarse_turnOfBlock name)]
    have hlacks' := lacks_opener_congr hcloses (h.staysApart _) (h.staysApart_core _) hitems hlacks
    let next := number + (dataEntries number (keptBreak shares ++ beforeMarker text)).length
    obtain ⟨rest, hrest, hindex⟩ := Recompiles.behind hmore.recompiles htrail htail
      (front ++ keptBreak shares ++ text ++ core) path lineStart part.endShares
      (part.nextNumber next)
    rw [List.append_assoc _ core] at hrest
    obtain ⟨u, index, hu, hsplit, hpart⟩ := h.compiles hfront hbreaks hlacks' path number hrest
    rw [List.append_assoc, List.append_assoc] at hu
    refine ⟨u, hu, ?_⟩
    rw [hsplit, partsKeepGaps_textParts_append h.isConstruct, partsBlocks_textParts_append]
    refine (hpart.append hindex).congr (fullNames_partsBlocks rfl _ next (part :: parts)) ?_
    intro hkept
    rw [Bool.and_eq_true, Bool.and_eq_true] at hkept
    refine ⟨?_, by rw [hkept.1.2, hkept.2]; rfl⟩
    -- where the gap is kept, the construct has the number that it had
    have hgap : text.isEmpty = (keptBreak shares ++ beforeMarker text).isEmpty :=
      (beq_iff_eq.1 hkept.1.1).symm
    rw [length_dataEntries hgap]
    rfl

/-- The next construct in a unit, with the literal text in front of it. -/
theorem IsWrittenAs.cons_of_isSearched {code core : List Char} {pos : Nat} {c : Construct}
    {ms : Markers} {part : UnitPart} {parts : List UnitPart} (hfilled : c.IsFilled code pos ms)
    (hsearched : c.IsSearched code pos ms) (hcloses : closesComments (slice code pos c.start))
    (h : part.IsWritten (ms.fill c.kind) core) (hmore : IsWrittenAs (code.drop c.stop) parts) :
    IsWrittenAs (code.drop pos) (textParts (slice code pos c.start) ++ part :: parts) := by
  have hdrop : code.drop c.start = ms.fill c.kind ++ code.drop c.stop := by
    rw [← hfilled.fill, slice_append_drop hfilled.start_le]
  have hlacks := hsearched.lacks
  rw [hdrop] at hlacks
  rw [← slice_append_drop hfilled.pos_le, hdrop]
  exact IsWrittenAs.cons h hcloses hlacks hmore

/-- The parts of a compiled unit are written so that they compile again. -/
theorem isWrittenAs_of_compilesTo {code : List Char} {path : BlockPath} {lineStart : Bool}
    {pos number : Nat} {u : CompiledUnit} {parts : List UnitPart} (hcut : IsCut code pos)
    (hu : CompilesTo code path lineStart pos number u)
    (hparts : partsFrom code lineStart pos = .ok parts) (hapart : partsAreApart parts) :
    IsWrittenAs (code.drop pos) parts := by
  -- by the rules of compilation: the parts of a body and those behind the construct are written so
  -- by induction, and the construct is searched for in the text that they are written as
  induction hu generalizing parts with
  | text hnone =>
    rw [partsFrom_of_none hnone] at hparts
    cases hparts
    rw [← List.append_nil (textParts _), partsAreApart_textParts_append] at hapart
    exact isWrittenAs_textParts hapart.1 (lacks_of_nextConstruct? hnone)
  | block hc hinner hrest ihinner ihrest =>
    obtain ⟨ms, hms, hfilled⟩ := exists_markers_of_nextConstruct? hcut hc
    obtain ⟨innerParts, hinnerParts, -⟩ := exists_parts_of_compilesTo (isCut_zero _) hinner
    obtain ⟨restParts, hrestParts, -⟩ := exists_parts_of_compilesTo hfilled.isCut hrest
    rw [partsFrom_of_block hc hms hinnerParts hrestParts] at hparts
    cases hparts
    obtain ⟨hcloses, hpart, hmore⟩ := partsAreApart_textParts_append_cons.1 hapart
    obtain ⟨hmarkers, hinnerApart⟩ := Bool.and_eq_true_iff.1 hpart
    have hinner := ihinner (isCut_zero _) hinnerParts hinnerApart
    have hrest := ihrest hfilled.isCut hrestParts hmore
    have hsearched := isSearched_of_nextConstruct? hcut hc hms hmarkers
    have hbody := hsearched.bodies hinner.isRewriting.closes
    exact IsWrittenAs.cons_of_isSearched hfilled hsearched hcloses
      (UnitPart.isWritten_block hfilled.areOf hmarkers hbody hinner.isRewriting
        hinner.recompiles) hrest
  | loop hc hinner hrest ihinner ihrest =>
    obtain ⟨ms, hms, hfilled⟩ := exists_markers_of_nextConstruct? hcut hc
    obtain ⟨innerParts, hinnerParts, -⟩ := exists_parts_of_compilesTo (isCut_zero _) hinner
    obtain ⟨restParts, hrestParts, -⟩ := exists_parts_of_compilesTo hfilled.isCut hrest
    rw [partsFrom_of_loop hc hms hinnerParts hrestParts] at hparts
    cases hparts
    obtain ⟨hcloses, hpart, hmore⟩ := partsAreApart_textParts_append_cons.1 hapart
    obtain ⟨hmarkers, hinnerApart⟩ := Bool.and_eq_true_iff.1 hpart
    have hinner := ihinner (isCut_zero _) hinnerParts hinnerApart
    have hrest := ihrest hfilled.isCut hrestParts hmore
    have hsearched := isSearched_of_nextConstruct? hcut hc hms hmarkers
    have hbody := hsearched.bodies hinner.isRewriting.closes
    exact IsWrittenAs.cons_of_isSearched hfilled hsearched hcloses
      (UnitPart.isWritten_loop hfilled.areOf hmarkers hbody hinner.isRewriting
        hinner.recompiles) hrest
  | conditional hc hinner hothers hrest ihinner ihothers ihrest =>
    obtain ⟨ms, hms, hfilled⟩ := exists_markers_of_nextConstruct? hcut hc
    obtain ⟨innerParts, hinnerParts, -⟩ := exists_parts_of_compilesTo (isCut_zero _) hinner
    obtain ⟨otherParts, hotherParts, -⟩ := exists_parts_of_compilesTo (isCut_zero _) hothers
    obtain ⟨restParts, hrestParts, -⟩ := exists_parts_of_compilesTo hfilled.isCut hrest
    rw [partsFrom_of_conditional hc hms hinnerParts hotherParts hrestParts] at hparts
    cases hparts
    obtain ⟨hcloses, hpart, hmore⟩ := partsAreApart_textParts_append_cons.1 hapart
    obtain ⟨hpart, hotherApart⟩ := Bool.and_eq_true_iff.1 hpart
    obtain ⟨hmarkers, hinnerApart⟩ := Bool.and_eq_true_iff.1 hpart
    have hinner := ihinner (isCut_zero _) hinnerParts hinnerApart
    have hothers := ihothers (isCut_zero _) hotherParts hotherApart
    have hrest := ihrest hfilled.isCut hrestParts hmore
    have hsearched := isSearched_of_nextConstruct? hcut hc hms hmarkers
    obtain ⟨hsource, hseparated, hbranches⟩ := hsearched.bodies
    obtain ⟨hifBody, helseBody⟩ := hbranches hinner.isRewriting.closes hothers.isRewriting.closes
    obtain ⟨core, hwritten⟩ := UnitPart.exists_isWritten_conditional hfilled.areOf hmarkers hsource
      hseparated hifBody helseBody hotherParts hinner.isRewriting hothers.isRewriting
      hinner.recompiles hothers.recompiles
    exact IsWrittenAs.cons_of_isSearched hfilled hsearched hcloses hwritten hrest

end BlockTemplate
