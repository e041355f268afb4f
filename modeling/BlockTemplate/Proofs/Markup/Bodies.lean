import BlockTemplate.Proofs.Markup.Levels
import BlockTemplate.Proofs.Markup.Markers

/-!
# Bodies of constructs

What the search for the end of a construct has passed over is its bodies, with the rest of lines
around them. So a search from outside passes over a body wherever it stands, and nothing starts a
construct in the text in front of one.

## Key results

- `isSearched_of_nextConstruct?`: the text before a construct has no construct that starts in it,
  and the bodies of the construct are ones
-/

namespace BlockTemplate

namespace Extent

/-- Whether no other comment starts in the comment of a marker. -/
def isApart (e : Extent) : Bool := !occursIn commentStart e.comment.tail

variable {e : Extent} {m : Marker}

/-- The comment of a marker in which no other one starts is the marker and nothing more. -/
theorem IsOf.isComment (h : e.IsOf m) (hapart : e.isApart) : IsComment e.comment m := by
  obtain ⟨content, rest, hcomment, hsize, -⟩ := exists_comment_of_marker? h.comment
  -- the comment is all of its extent
  obtain rfl : rest = [] := by
    have hlength := congrArg List.length hcomment
    rw [List.length_append, ← hsize] at hlength
    exact List.length_eq_zero_iff.1 (by omega)
  rw [isApart, Bool.not_eq_true'] at hapart
  constructor
  · intro rest
    have hmarker := h.comment
    rw [marker?] at hmarker
    obtain ⟨inner, hinner, -⟩ := Option.bind_eq_some_iff.1 hmarker
    rw [marker?, comment?_append_of_some hinner, ← hinner]
    exact h.comment
  · -- the last character of the comment is not in the start of another one
    have htail : e.comment.tail = ['!', '-', '-'] ++ content ++ ['-', '-'] ++ ['>'] := by
      rw [hcomment]
      simp [commentStart, commentEnd]
    rw [htail] at hapart ⊢
    exact quiet_snoc (occursIn_of_append (by decide) _ hapart) (by decide)

/-- No comment starts in the blanks before a marker. -/
theorem IsOf.quiet_indent (h : e.IsOf m) : Quiet e.indent :=
  quiet_of_not_mem fun hmem => absurd (h.indent _ hmem) (by decide)

/-- No comment starts in the rest of the line of a marker. -/
theorem IsOf.quiet_ending (h : e.IsOf m) : Quiet e.ending := by
  obtain ⟨blanks, ending, rest, hline, hsize, hblanks, hending, -, -⟩ :=
    exists_line_of_restOfLine? h.ending
  obtain rfl : rest = [] := by
    have hlength := congrArg List.length hline
    rw [List.length_append, ← hsize] at hlength
    exact List.length_eq_zero_iff.1 (by omega)
  rw [hline, List.append_nil]
  refine quiet_of_not_mem fun hmem => ?_
  rcases List.mem_append.1 hmem with hmem | hmem
  · exact absurd (hblanks _ hmem) (by decide)
  · exact absurd (hending _ hmem) (by decide)

theorem IsOf.staysApart_indent (h : e.IsOf m) : StaysApart e.indent := by
  intro c hc
  have hindent := h.indent c (List.mem_of_mem_head? hc)
  constructor
  · rintro rfl
    exact absurd hindent (by decide)
  · rintro rfl
    exact absurd hindent (by decide)

variable {α : Type} (f : Marker → Option α)

/-- What is found in the line of a marker is the marker. -/
theorem IsOf.itemsIn_append (h : e.IsOf m) (hapart : e.isApart) (rest : List Char) :
    itemsIn f (e.chars ++ rest) = (f m).toList ++ itemsIn f rest := by
  rw [chars, List.append_assoc, List.append_assoc, h.quiet_indent.itemsIn_append,
    (h.isComment hapart).itemsIn_append, h.quiet_ending.itemsIn_append]

theorem IsOf.closesComments_append (h : e.IsOf m) (hapart : e.isApart) {rest : List Char}
    (hrest : closesComments rest) : closesComments (e.chars ++ rest) := by
  rw [chars, List.append_assoc, List.append_assoc]
  exact h.quiet_indent.closesComments_append
    ((h.isComment hapart).closesComments_append (h.quiet_ending.closesComments_append hrest))

theorem IsOf.staysApart (h : e.IsOf m) (hapart : e.isApart) (rest : List Char) :
    StaysApart (e.chars ++ rest) := by
  rw [chars, List.append_assoc, List.append_assoc]
  exact h.staysApart_indent.append ((h.isComment hapart).staysApart _)

end Extent

/-- Whether no other comment starts in the markers of a construct. -/
def Markers.areApart (ms : Markers) : Bool :=
  ms.opening.isApart && ms.separator.all Extent.isApart && ms.closing.isApart

theorem Markers.areApart_iff {ms : Markers} :
    ms.areApart ↔ ms.opening.isApart ∧ (∀ e ∈ ms.separator, e.isApart) ∧ ms.closing.isApart := by
  rw [areApart, Bool.and_eq_true, Bool.and_eq_true, Option.all_eq_true, and_assoc]
  rfl

/-! ## Text between markers -/

section
variable {code : List Char} {lineStart : Bool} {pos : Nat}

theorem MarkerAt.staysApart {start stop : Nat} {m : Marker} (h : MarkerAt code start stop m) :
    StaysApart (code.drop start) := by
  obtain ⟨content, rest, hcode, -, -⟩ := exists_comment_of_marker? h.marker
  rw [hcode]
  exact staysApart_cons (by decide) _

section
variable {α β : Type} {first : Found α} {second : Found β} {m m' : Marker}

/-- Between two markers there is a body, with what belongs to their lines around it. -/
theorem slice_eq_body (lineStart : Bool) (h : MarkerAt code first.start first.stop m)
    (h' : MarkerAt code second.start second.stop m') (hle : first.stop ≤ second.start) :
    slice code first.stop second.start
      = (extentAt code lineStart first).ending
        ++ ((bodyAt code lineStart (markerSpan code first.start first.stop lineStart).2
          (markerSpan code second.start second.stop lineStart).1).code
        ++ (extentAt code lineStart second).indent) := by
  have hspan := markerSpan_le_markerSpan h h' hle lineStart
  have hfirst := le_markerSpan_snd code first.start first.stop lineStart
  have hsecond := markerSpan_fst_le code second.start second.stop lineStart
  rw [bodyAt, extentAt, extentAt, slice_append_slice hspan hsecond,
    slice_append_slice hfirst (Nat.le_trans hspan hsecond)]

/-- The rest of lines around a body holds no marker. -/
theorem closesComments_between (h : MarkerAt code first.start first.stop m)
    (h' : MarkerAt code second.start second.stop m') (hle : first.stop ≤ second.start)
    (hbody : closesComments (bodyAt code lineStart
      (markerSpan code first.start first.stop lineStart).2
      (markerSpan code second.start second.stop lineStart).1).code) :
    closesComments (slice code first.stop second.start) := by
  have hfirst : (extentAt code lineStart first).IsOf m := isOf_extentAt h
  have hsecond : (extentAt code lineStart second).IsOf m' := isOf_extentAt h'
  rw [slice_eq_body lineStart h h' hle]
  exact hfirst.quiet_ending.closesComments_append (closesComments_append hbody
    hsecond.quiet_indent.closesComments hsecond.staysApart_indent)

theorem itemsIn_between {ι : Type} (f : Marker → Option ι)
    (h : MarkerAt code first.start first.stop m)
    (h' : MarkerAt code second.start second.stop m') (hle : first.stop ≤ second.start)
    (hbody : closesComments (bodyAt code lineStart
      (markerSpan code first.start first.stop lineStart).2
      (markerSpan code second.start second.stop lineStart).1).code) :
    itemsIn f (slice code first.stop second.start)
      = itemsIn f (bodyAt code lineStart (markerSpan code first.start first.stop lineStart).2
        (markerSpan code second.start second.stop lineStart).1).code := by
  have hfirst : (extentAt code lineStart first).IsOf m := isOf_extentAt h
  have hsecond : (extentAt code lineStart second).IsOf m' := isOf_extentAt h'
  rw [slice_eq_body lineStart h h' hle, hfirst.quiet_ending.itemsIn_append,
    itemsIn_append f hbody hsecond.staysApart_indent, hsecond.quiet_indent.itemsIn_eq_nil,
    List.append_nil]

end

/-! ## Bodies of constructs -/

/-- Whether the bodies of a construct are ones, as far as they close their comments. A branch with
    no separator in front of it is empty. -/
def ConstructKind.HasBodies (ms : Markers) : ConstructKind → Prop
  | .block name body =>
    closesComments body.code → IsBody Turn.next (turnOfBlock name.toList) body.code
  | .loop _ body => closesComments body.code → IsBody Turn.next turnOfLoop body.code
  | .conditional condition ifBody elseBody =>
    condition.source.shown ≠ "" ∧ (ms.separator = none → elseBody.code = [])
      ∧ (closesComments ifBody.code → closesComments elseBody.code →
        IsBody BranchTurn.next turnOfBranch ifBody.code
          ∧ IsBody BranchTurn.next turnOfBranch elseBody.code)

/-- Whether no construct starts before this one, and what is between its markers are bodies. -/
structure Construct.IsSearched (code : List Char) (pos : Nat) (ms : Markers) (c : Construct) :
    Prop where
  lacks : Lacks opener? (code.drop c.start) (slice code pos c.start)
  bodies : c.kind.HasBodies ms

section
variable {opener : Found Marker} {c : Construct}
  (hopen : MarkerAt code opener.start opener.stop opener.item)

include hopen

/-- The body that ends where a search for the end does. -/
theorem isBody_of_closing? {f : Marker → Option Turn} {close : Found Turn} {m : Marker}
    (h : closing? 0 (findAll (markerAs f) 0 opener.stop (code.drop opener.stop)) = some close)
    (hclose : MarkerAt code close.start close.stop m) (hle : opener.stop ≤ close.start)
    (hbody : closesComments (bodyAt code lineStart
      (markerSpan code opener.start opener.stop lineStart).2
      (markerSpan code close.start close.stop lineStart).1).code) :
    IsBody Turn.next f (bodyAt code lineStart
      (markerSpan code opener.start opener.stop lineStart).2
      (markerSpan code close.start close.stop lineStart).1).code where
  closes := hbody
  level := by
    have hcloses := closesComments_between hopen hclose hle hbody
    rw [← slice_append_drop hle] at h
    rw [← itemsIn_between f hopen hclose hle hbody]
    exact depthAfter_of_closing? hcloses hclose.staysApart h
      (eq_add_length_slice hle hclose.start_le_length)

/-- Without a separator the first branch ends where the conditional does. -/
theorem isBody_of_ifEnds {close : Found BranchTurn}
    (h : ifEnds opener.stop (code.drop opener.stop) = .ok (none, close))
    (hbody : closesComments (bodyAt code lineStart
      (markerSpan code opener.start opener.stop lineStart).2
      (markerSpan code close.start close.stop lineStart).1).code) :
    IsBody BranchTurn.next turnOfBranch (bodyAt code lineStart
      (markerSpan code opener.start opener.stop lineStart).2
      (markerSpan code close.start close.stop lineStart).1).code where
  closes := hbody
  level := by
    obtain ⟨⟨hclose, hle⟩, -⟩ := markerAt_of_ifEnds h
    have hcloses := closesComments_between hopen hclose hle hbody
    rw [← slice_append_drop hle] at h
    rw [← itemsIn_between _ hopen hclose hle hbody]
    exact depthAfter_of_ifEnds hcloses hclose.staysApart h
      (eq_add_length_slice hle hclose.start_le_length)

/-- With a separator the first branch ends there, and the second one where the conditional does. -/
theorem areBodies_of_ifEnds {separator close : Found BranchTurn}
    (h : ifEnds opener.stop (code.drop opener.stop) = .ok (some separator, close))
    (hcomment : IsComment (slice code separator.start separator.stop) .ifElse)
    (hif : closesComments (bodyAt code lineStart
      (markerSpan code opener.start opener.stop lineStart).2
      (markerSpan code separator.start separator.stop lineStart).1).code)
    (helse : closesComments (bodyAt code lineStart
      (markerSpan code separator.start separator.stop lineStart).2
      (markerSpan code close.start close.stop lineStart).1).code) :
    IsBody BranchTurn.next turnOfBranch (bodyAt code lineStart
        (markerSpan code opener.start opener.stop lineStart).2
        (markerSpan code separator.start separator.stop lineStart).1).code
      ∧ IsBody BranchTurn.next turnOfBranch (bodyAt code lineStart
        (markerSpan code separator.start separator.stop lineStart).2
        (markerSpan code close.start close.stop lineStart).1).code := by
  obtain ⟨⟨hclose, -⟩, hseparator⟩ := markerAt_of_ifEnds h
  obtain ⟨hfound, hbefore, hafter⟩ := hseparator separator rfl
  have hcloses := closesComments_between hopen hfound hbefore hif
  have hcloses' := closesComments_between hfound hclose hafter helse
  have hfirst := eq_add_length_slice hbefore hfound.start_le_length
  have hmarker := eq_add_length_slice hfound.start_le hfound.stop_le
  have hsecond := eq_add_length_slice hafter hclose.start_le_length
  -- the text behind the opening marker is the branches with the separator between them
  rw [← slice_append_drop hbefore, ← slice_append_drop hfound.start_le,
    ← slice_append_drop hafter] at h
  obtain ⟨hlevel, hlevel'⟩ := depthAfter_of_ifEnds_of_separator hcloses hcomment hcloses'
    hclose.staysApart h hfirst (by rw [← hfirst, ← hmarker, ← hsecond])
  rw [itemsIn_between _ hopen hfound hbefore hif] at hlevel
  rw [itemsIn_between _ hfound hclose hafter helse] at hlevel'
  exact ⟨⟨hif, hlevel⟩, helse, hlevel'⟩

theorem hasBodies_of_loopAt {header : List Char} (h : loopAt code lineStart opener header = .ok c)
    (ms : Markers) : c.start ≤ opener.start ∧ c.kind.HasBodies ms := by
  obtain ⟨-, close, parsed, hend, hparse, rfl⟩ := loopAt_eq_ok_iff.1 h
  obtain ⟨hclose, hle⟩ := markerAt_of_loopEnd? hend
  rw [loopEnd?, loopTurn?_eq_markerAs] at hend
  exact ⟨markerSpan_fst_le _ _ _ _, isBody_of_closing? hopen hend hclose hle⟩

theorem hasBodies_of_conditionalAt {condition : List Char} {ms : Markers}
    (h : conditionalAt code lineStart opener condition = .ok c)
    (hitem : opener.item = .ifBegin condition)
    (hmarkers : markersAt? code lineStart opener = some ms) (hapart : ms.areApart) :
    c.start ≤ opener.start ∧ c.kind.HasBodies ms := by
  obtain ⟨hne, separator, close, parsed, hends, hparse, rfl⟩ := conditionalAt_eq_ok_iff.1 h
  have hsource : parsed.source.shown ≠ "" := by
    intro hempty
    rw [← Condition.shown_of_parse hparse, hempty] at hne
    exact hne rfl
  rw [markersAt?, hitem] at hmarkers
  simp only [hends, Except.toOption, Option.map_some, Option.some.injEq] at hmarkers
  subst hmarkers
  -- without a separator, the second branch is empty
  refine ⟨markerSpan_fst_le _ _ _ _, hsource, ?_, ?_⟩
  · intro hnone
    rw [Option.map_eq_none_iff.1 hnone, branches]
  · intro hif helse
    cases separator with
    | none => exact ⟨isBody_of_ifEnds hopen hends hif, ⟨rfl, rfl⟩⟩
    | some found =>
      have hmarker : (extentAt code lineStart found).IsOf .ifElse :=
        isOf_extentAt ((markerAt_of_ifEnds hends).2 found rfl).1
      have hseparates := (Markers.areApart_iff.1 hapart).2.1 _ rfl
      exact areBodies_of_ifEnds hopen hends (hmarker.isComment hseparates) hif helse

end

/-- Nothing starts a construct before the first one, and no search from outside ends in it. -/
theorem isSearched_of_nextConstruct? {c : Construct} {ms : Markers} (hcut : IsCut code pos)
    (h : nextConstruct? code lineStart pos = .ok (some c))
    (hmarkers : nextMarkers? code lineStart pos = some ms) (hapart : ms.areApart) :
    c.IsSearched code pos ms := by
  obtain ⟨_, _, hfilled⟩ := exists_markers_of_nextConstruct? hcut h
  have hpos := hfilled.pos_le
  obtain ⟨opener, hfind, h⟩ := nextConstruct?_eq_some_iff.1 h
  rw [nextMarkers?, hfind, Option.bind_some] at hmarkers
  obtain ⟨hopen, -⟩ := markerAt_of_find?_opener? hfind
  have hbodies : c.start ≤ opener.start ∧ c.kind.HasBodies ms := by
    obtain ⟨header, hitem, h⟩ | ⟨condition, hitem, h⟩ | ⟨name, close, hitem, hend, rfl⟩ :=
      constructAt_cases h
    · exact hasBodies_of_loopAt hopen h ms
    · exact hasBodies_of_conditionalAt hopen h hitem hmarkers hapart
    · obtain ⟨hclose, hle⟩ := markerAt_of_blockEnd? hend
      rw [blockEnd?, blockTurn?_eq_markerAs] at hend
      refine ⟨markerSpan_fst_le _ _ _ _, fun hbody => ?_⟩
      rw [String.toList_ofList]
      exact isBody_of_closing? hopen hend hclose hle hbody
  -- what would start earlier would have been found first
  refine ⟨lacks_of_find? pos fun found hfound => ?_, hbodies.2⟩
  rw [slice_append_drop hpos, hfind] at hfound
  cases hfound
  have hlength : (slice code pos c.start).length ≤ c.start - pos := List.length_take_le _ _
  have hstart := hbodies.1
  omega

/-- Where no construct is found, none starts. -/
theorem lacks_of_nextConstruct? (h : nextConstruct? code lineStart pos = .ok none) :
    Lacks opener? [] (code.drop pos) := by
  refine lacks_of_find? pos fun found hfound => ?_
  rw [List.append_nil] at hfound
  exfalso
  rw [nextConstruct?, hfound] at h
  dsimp only at h
  obtain ⟨header, hitem⟩ | ⟨condition, hitem⟩ | ⟨name, close, hitem, hclose⟩ := opener_cases hfound
  · rw [constructAt, hitem] at h
    obtain ⟨_, _, hsome⟩ := exists_of_map_eq_ok h
    cases hsome
  · rw [constructAt, hitem] at h
    obtain ⟨_, _, hsome⟩ := exists_of_map_eq_ok h
    cases hsome
  · rw [constructAt, hitem] at h
    simp only [hclose] at h
    cases h

end

end BlockTemplate
