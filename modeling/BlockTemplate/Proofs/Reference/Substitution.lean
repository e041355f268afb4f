import BlockTemplate.Proofs.Outcome
import BlockTemplate.Proofs.Reference.Chunks
import BlockTemplate.Proofs.Text.Replacing
import BlockTemplate.Reference.Resolve
import Mathlib

/-!
# Substitution in text arguments

The running value and the texts of embedded tags are put into a text argument at once: nothing that
comes from them is looked at again. They are put in one after the other, with a placeholder for the
marks in the texts of tags, so that this is right only where no mark and no placeholder comes about
by accident, such as where the text of a tag meets the literal text behind it.

## Key results

- `insertRunning_eq_simultaneous`: the three replacements are a simultaneous one
- `resolve_text_eq_simultaneous`: what a text argument resolves to
- `resolve_text_ne_simultaneous`: a mark that comes about where two pieces meet
-/

namespace BlockTemplate

/-- A piece of a text argument, the text of its value for a tag. -/
def resolvePiece (ctx : Context) : Piece (List Char) → Except RenderError (Piece (List Char))
  | .literal chars => .ok (.literal chars)
  | .found body => do return .found (← (Reference.parse body).resolve ctx).toText.toList

/-- The text that resolved pieces make up, with the running value in place of each mark in literal
    text. -/
def simultaneous (running : List Char) (pieces : List (Piece (List Char))) : List Char :=
  pieces.flatMap fun
    | .literal chars => replaceAll runningValueMark.toList running chars
    | .found text => text

/-! ## One replacement after the other -/

/-- The parts of a resolved piece before the running value is put in: its marks, if it is literal
    text, and what is written for it otherwise. -/
def markParts : Piece (List Char) → List (Piece Unit)
  | .literal chars => cutAtPattern runningValueMark.toList chars
  | .found text => [.literal (hideMark text)]

/-- The parts of a resolved piece behind that: the marks that have been hidden in the text of a tag.
    -/
def hiddenParts (running : List Char) : Piece (List Char) → List (Piece Unit)
  | .literal chars => [.literal (replaceAll runningValueMark.toList running chars)]
  | .found text => cutAtPattern runningValueMark.toList text

/-- No mark and no placeholder comes about by accident. -/
structure KeepsApart (running : List Char) (pieces : List (Piece (List Char))) : Prop where
  /-- The mark of the running value occurs only within literal pieces. -/
  marks : FoundOnly runningValueMark.toList (pieces.flatMap markParts)
  /-- The placeholder occurs only where it has been written for a mark. -/
  hidden : FoundOnly markPlaceholder (pieces.flatMap (hiddenParts running))

theorem runningValueMark_ne_nil : runningValueMark.toList ≠ [] := by decide

theorem markPlaceholder_ne_nil : markPlaceholder ≠ [] := by decide

/-- A piece as it is written before the running value is put in. -/
def hiddenText : Piece (List Char) → List Char
  | .literal chars => chars
  | .found text => hideMark text

theorem written_markParts (piece : Piece (List Char)) :
    written runningValueMark.toList (markParts piece) = hiddenText piece := by
  cases piece with
  | literal chars => exact written_cutAtPattern runningValueMark_ne_nil chars
  | found text => exact List.append_nil _

/-- Putting the running value in leaves the hidden marks. -/
theorem written_markParts_eq_hiddenParts (running : List Char) (piece : Piece (List Char)) :
    written running (markParts piece) = written markPlaceholder (hiddenParts running piece) := by
  cases piece with
  | literal chars =>
    have hcut := replaceAll_eq_written_cutAtPattern running runningValueMark_ne_nil chars
    exact hcut.symm.trans (List.append_nil _).symm
  | found text =>
    have hcut := replaceAll_eq_written_cutAtPattern markPlaceholder runningValueMark_ne_nil text
    exact (List.append_nil _).trans hcut

theorem written_hiddenParts (running : List Char) (piece : Piece (List Char)) :
    written runningValueMark.toList (hiddenParts running piece)
      = simultaneous running [piece] := by
  cases piece with
  | literal chars => rfl
  | found text =>
    have hcut := written_cutAtPattern runningValueMark_ne_nil text
    exact hcut.trans (List.append_nil _).symm

/-- If no mark and no placeholder comes about by accident, the running value is put in place of the
    marks in literal text, and nothing else is changed. -/
theorem insertRunning_eq_simultaneous {running : Value} {pieces : List (Piece (List Char))}
    (h : KeepsApart running.toText.toList pieces) :
    insertRunning running (pieces.flatMap hiddenText)
      = simultaneous running.toText.toList pieces := by
  -- the running value is put in first, and the hidden marks are put back after that
  have hmarks := replaceAll_written running.toText.toList runningValueMark_ne_nil h.marks
  have hhidden := replaceAll_written runningValueMark.toList markPlaceholder_ne_nil h.hidden
  rw [written_flatMap, written_flatMap] at hmarks hhidden
  simp only [written_markParts] at hmarks
  simp only [← written_markParts_eq_hiddenParts, written_hiddenParts] at hhidden
  rw [insertRunning, hmarks, hhidden]
  simp [simultaneous]

/-- The text of a resolved piece. -/
def pieceText : Piece (List Char) → List Char
  | .literal chars => chars
  | .found text => text

/-- Nothing comes about by accident if dollar signs stand only in marks, in literal text and in the
    texts of tags, and tildes nowhere. -/
theorem keepsApart_of_not_mem {running : List Char} {pieces : List (Piece (List Char))}
    (hdollar : ∀ piece ∈ pieces, '$' ∉ hideMark (pieceText piece))
    (hrunning : '~' ∉ running) (htilde : ∀ piece ∈ pieces, '~' ∉ pieceText piece) :
    KeepsApart running pieces := by
  -- a part between two marks of a text is a part of the text with its marks hidden, too
  have hparts {text chars : List Char}
      (h : .literal chars ∈ cutAtPattern runningValueMark.toList text) {c : Char} (hc : c ∈ chars) :
      c ∈ hideMark text ∧ c ∈ text := by
    constructor
    · rw [hideMark, replaceAll_eq_written_cutAtPattern _ runningValueMark_ne_nil]
      exact mem_written_of_mem h hc
    · rw [← written_cutAtPattern runningValueMark_ne_nil text]
      exact mem_written_of_mem h hc
  constructor
  · refine foundOnly_of_not_mem fun chars hchars hmem => ?_
    obtain ⟨piece, hpiece, hchars⟩ := List.mem_flatMap.1 hchars
    refine hdollar piece hpiece ?_
    cases piece with
    | literal text => exact (hparts hchars hmem).1
    | found text =>
      cases List.mem_singleton.1 hchars
      exact hmem
  · refine foundOnly_of_not_mem fun chars hchars hmem => ?_
    obtain ⟨piece, hpiece, hchars⟩ := List.mem_flatMap.1 hchars
    refine htilde piece hpiece ?_
    cases piece with
    | literal text =>
      cases List.mem_singleton.1 hchars
      exact (mem_replaceAll _ runningValueMark_ne_nil hmem).resolve_left hrunning
    | found text => exact (hparts hchars hmem).2

/-! ## Text arguments -/

theorem renderChunks_map_toChunk (ctx : Context) (pieces : List (Piece (List Char))) :
    renderChunks ctx hideMark (pieces.map Piece.toChunk)
      = (do return (← pieces.mapM (resolvePiece ctx)).flatMap hiddenText) := by
  induction pieces with
  | nil => rfl
  | cons piece pieces ih =>
    rw [List.map_cons, List.mapM_cons]
    cases piece with
    | literal chars =>
      rw [Piece.toChunk, renderChunks, ih, resolvePiece, ok_bind, String.toList_ofList]
      cases pieces.mapM (resolvePiece ctx) <;> rfl
    | found body =>
      rw [Piece.toChunk, renderChunks, ih, resolvePiece]
      cases (Reference.parse body).resolve ctx with
      | error e => rfl
      | ok value => cases pieces.mapM (resolvePiece ctx) <;> rfl

theorem embeddedPieces_runningValueMark :
    embeddedPieces runningValueMark.toList = [.literal runningValueMark.toList] := by
  cbv

/-- Only the mark itself is cut into the mark and nothing else. -/
theorem isRunningMark_embeddedChunks (text : String) :
    isRunningMark (embeddedChunks text) = (text == runningValueMark) := by
  rw [Bool.eq_iff_iff, beq_iff_eq]
  constructor
  · intro h
    have hsource := chunksSource_embeddedChunks text
    unfold isRunningMark at h
    split at h
    · rename_i only hchunks
      rw [hchunks, beq_iff_eq.1 h] at hsource
      rw [← hsource]
      decide
    · exact nomatch h
  · rintro rfl
    rw [embeddedChunks, chunksOf_parse, embeddedPieces_runningValueMark]
    decide

/-- A text argument passes a container if it is the mark of the running value alone, and otherwise
    the text in which the running value stands for the marks in literal text, and the texts of the
    embedded tags for the tags, unless a mark or a placeholder comes about by accident. -/
theorem resolve_text_eq_simultaneous (ctx : Context) (running : Value) (text : String)
    (h : ∀ pieces, (embeddedPieces text.toList).mapM (resolvePiece ctx) = .ok pieces →
      KeepsApart running.toText.toList pieces) :
    (Argument.text (embeddedChunks text)).resolve ctx running
      = if text == runningValueMark && running.isContainer then .ok running
        else do
          let pieces ← (embeddedPieces text.toList).mapM (resolvePiece ctx)
          return .text (String.ofList (simultaneous running.toText.toList pieces)) := by
  rw [Argument.resolve, isRunningMark_embeddedChunks, embeddedChunks, chunksOf_parse,
    renderChunks_map_toChunk]
  split
  · rfl
  · cases hpieces : (embeddedPieces text.toList).mapM (resolvePiece ctx) with
    | error e => rfl
    | ok pieces =>
      have htext := insertRunning_eq_simultaneous (h pieces hpieces)
      exact congrArg (fun text => Except.ok (Value.text (String.ofList text))) htext

/-- The argument `{A}=$this {B}`, where the text of `A` and the running value hold marks. -/
theorem resolve_text_eq_simultaneous_of_marks :
    let ctx : Context :=
      { vars := [(.text "A", .text "$this"), (.text "B", .text "b")]
        callbacks := .empty
        globals := .null }
    let running : Value := .text "<$this>"
    (∀ pieces, (embeddedPieces "{A}=$this {B}".toList).mapM (resolvePiece ctx) = .ok pieces →
        KeepsApart running.toText.toList pieces)
      ∧ (Argument.text (embeddedChunks "{A}=$this {B}")).resolve ctx running
        = .ok (.text "$this=<$this> b") := by
  intro ctx running
  have hpieces : (embeddedPieces "{A}=$this {B}".toList).mapM (resolvePiece ctx)
      = .ok [.found "$this".toList, .literal "=$this ".toList, .found "b".toList] := by
    cbv
  have h : ∀ pieces, (embeddedPieces "{A}=$this {B}".toList).mapM (resolvePiece ctx) = .ok pieces →
      KeepsApart running.toText.toList pieces := by
    intro pieces hread
    rw [hpieces] at hread
    cases hread
    exact keepsApart_of_not_mem (by decide) (by decide) (by decide)
  refine ⟨h, ?_⟩
  rw [resolve_text_eq_simultaneous ctx running "{A}=$this {B}" h, hpieces]
  cbv

/-- The argument `{A}is`, where the text of `A` is `$th`: the mark that comes about between the tag
    and the literal text is taken for one. -/
theorem resolve_text_ne_simultaneous :
    let ctx : Context :=
      { vars := [(.text "A", .text "$th")], callbacks := .empty, globals := .null }
    (embeddedPieces "{A}is".toList).mapM (resolvePiece ctx)
        = .ok [.found "$th".toList, .literal "is".toList]
      ∧ simultaneous "3".toList [.found "$th".toList, .literal "is".toList] = "$this".toList
      ∧ (Argument.text (embeddedChunks "{A}is")).resolve ctx (.int 3) = .ok (.text "3") := by
  intro ctx
  refine ⟨by cbv, by decide, ?_⟩
  cbv

end BlockTemplate
