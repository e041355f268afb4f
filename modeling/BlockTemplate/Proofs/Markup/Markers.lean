import BlockTemplate.Proofs.Markup.Extent
import BlockTemplate.Proofs.Outcome

/-!
# The markers of constructs

The extents of the markers of a construct and the bodies between them are the text of the construct:
no character is left out, and none belongs to two of them.

## Key results

- `exists_markers_of_nextConstruct?`: the text of the next construct consists of its bodies with its
  markers around them
-/

namespace BlockTemplate

/-- The extents of the markers of a construct. -/
structure Markers where
  opening : Extent
  separator : Option Extent
  closing : Extent

namespace Markers

/-- The characters of the separator, if there is one. -/
def separatorChars (ms : Markers) : List Char := ms.separator.elim [] Extent.chars

/-- The text of a construct: its bodies with the markers around them. -/
def fill (ms : Markers) : ConstructKind → List Char
  | .block _ body | .loop _ body => ms.opening.chars ++ body.code ++ ms.closing.chars
  | .conditional _ ifBody elseBody =>
    ms.opening.chars ++ ifBody.code ++ ms.separatorChars ++ elseBody.code ++ ms.closing.chars

/-- Whether markers are those of a block. -/
def AreOfBlock (ms : Markers) (name : String) : Prop :=
  ms.opening.IsOf (.blockBegin name.toList) ∧ ms.closing.IsOf (.blockEnd name.toList)

/-- Whether markers are those of a loop. -/
def AreOfLoop (ms : Markers) (header : LoopHeader) : Prop :=
  (∃ text, LoopHeader.parse? text = some header ∧ ms.opening.IsOf (.loopBegin text))
    ∧ ms.closing.IsOf .loopEnd

/-- Whether markers are those of a conditional. -/
def AreOfConditional (ms : Markers) (condition : Condition) : Prop :=
  (∃ source, Condition.parse source = .ok condition ∧ ms.opening.IsOf (.ifBegin source))
    ∧ (∀ e ∈ ms.separator, e.IsOf .ifElse) ∧ ms.closing.IsOf .ifEnd

/-- Whether markers are those of a construct. -/
def AreOf (ms : Markers) : ConstructKind → Prop
  | .block name _ => ms.AreOfBlock name
  | .loop header _ => ms.AreOfLoop header
  | .conditional condition _ _ => ms.AreOfConditional condition

end Markers

/-- The markers of the construct with its opening marker at a place. -/
def markersAt? (code : List Char) (lineStart : Bool) (opener : Found Marker) : Option Markers :=
  let after := code.drop opener.stop
  match opener.item with
  | .blockBegin name => (blockEnd? name opener.stop after).map fun close =>
    ⟨extentAt code lineStart opener, none, extentAt code lineStart close⟩
  | .loopBegin _ => (loopEnd? opener.stop after).map fun close =>
    ⟨extentAt code lineStart opener, none, extentAt code lineStart close⟩
  | .ifBegin _ => (ifEnds opener.stop after).toOption.map fun (separator, close) =>
    ⟨extentAt code lineStart opener, separator.map (extentAt code lineStart),
      extentAt code lineStart close⟩
  | _ => none

/-- The markers of the first construct at or after a position. -/
def nextMarkers? (code : List Char) (lineStart : Bool) (pos : Nat) : Option Markers :=
  (find? opener? pos (code.drop pos)).bind (markersAt? code lineStart)

section
variable {code : List Char} {lineStart : Bool} {pos : Nat} {opener : Found Marker} {c : Construct}

/-- Whether a construct behind a cut consists of its bodies and of markers, with a cut behind it. -/
structure Construct.IsFilled (code : List Char) (pos : Nat) (c : Construct) (ms : Markers) :
    Prop where
  pos_le : pos ≤ c.start
  start_le : c.start ≤ c.stop
  areOf : ms.AreOf c.kind
  fill : slice code c.start c.stop = ms.fill c.kind
  isCut : IsCut code c.stop

theorem MarkerAt.markerSpan_le {start stop : Nat} {m : Marker} (h : MarkerAt code start stop m)
    (lineStart : Bool) :
    (markerSpan code start stop lineStart).1 ≤ (markerSpan code start stop lineStart).2 :=
  Nat.le_trans (markerSpan_fst_le code start stop lineStart)
    (Nat.le_trans h.start_le (le_markerSpan_snd code start stop lineStart))

/-- The text from one extent up to the end of the next. -/
theorem slice_between {α β : Type} {first : Found α} {second : Found β} {m m' : Marker}
    (h : MarkerAt code first.start first.stop m) (h' : MarkerAt code second.start second.stop m')
    (hle : first.stop ≤ second.start) :
    slice code (markerSpan code first.start first.stop lineStart).2
        (markerSpan code second.start second.stop lineStart).2
      = (bodyAt code lineStart (markerSpan code first.start first.stop lineStart).2
          (markerSpan code second.start second.stop lineStart).1).code
        ++ (extentAt code lineStart second).chars := by
  rw [chars_extentAt h', bodyAt, slice_append_slice (markerSpan_le_markerSpan h h' hle lineStart)
    (h'.markerSpan_le lineStart)]

/-- The text from the start of one extent up to a later position. -/
theorem slice_from {α : Type} {first : Found α} {m : Marker} {stop : Nat}
    (h : MarkerAt code first.start first.stop m)
    (hle : (markerSpan code first.start first.stop lineStart).2 ≤ stop) :
    slice code (markerSpan code first.start first.stop lineStart).1 stop
      = (extentAt code lineStart first).chars
        ++ slice code (markerSpan code first.start first.stop lineStart).2 stop := by
  rw [chars_extentAt h, slice_append_slice (h.markerSpan_le lineStart) hle]

/-- A construct ends behind its start. -/
theorem start_le_of_markers {α β : Type} {first : Found α} {second : Found β} {m m' : Marker}
    (h : MarkerAt code first.start first.stop m) (h' : MarkerAt code second.start second.stop m')
    (hle : first.stop ≤ second.start) :
    (markerSpan code first.start first.stop lineStart).1
      ≤ (markerSpan code second.start second.stop lineStart).2 :=
  Nat.le_trans (h.markerSpan_le lineStart)
    (Nat.le_trans (markerSpan_le_markerSpan h h' hle lineStart) (h'.markerSpan_le lineStart))

/-- The text of a construct with one body. -/
theorem slice_construct {α β : Type} {first : Found α} {second : Found β} {m m' : Marker}
    (h : MarkerAt code first.start first.stop m) (h' : MarkerAt code second.start second.stop m')
    (hle : first.stop ≤ second.start) :
    slice code (markerSpan code first.start first.stop lineStart).1
        (markerSpan code second.start second.stop lineStart).2
      = (extentAt code lineStart first).chars
        ++ (bodyAt code lineStart (markerSpan code first.start first.stop lineStart).2
          (markerSpan code second.start second.stop lineStart).1).code
        ++ (extentAt code lineStart second).chars := by
  have hspan := Nat.le_trans (markerSpan_le_markerSpan h h' hle lineStart)
    (h'.markerSpan_le lineStart)
  rw [slice_from h hspan, slice_between h h' hle, List.append_assoc]

/-- The text of a conditional, whose second branch is empty where nothing separates it from the
    first. -/
theorem slice_branches {m m' : Marker} {close : Found BranchTurn}
    {separator : Option (Found BranchTurn)} (hopen : MarkerAt code opener.start opener.stop m)
    (hclose : MarkerAt code close.start close.stop m') (hle : opener.stop ≤ close.start)
    (hseparator : ∀ found ∈ separator, MarkerAt code found.start found.stop .ifElse
      ∧ opener.stop ≤ found.start ∧ found.stop ≤ close.start) (condition : Condition) :
    slice code (markerSpan code opener.start opener.stop lineStart).1
        (markerSpan code close.start close.stop lineStart).2
      = Markers.fill ⟨extentAt code lineStart opener, separator.map (extentAt code lineStart),
        extentAt code lineStart close⟩ (.conditional condition
          (branches code lineStart (markerSpan code opener.start opener.stop lineStart)
            (markerSpan code close.start close.stop lineStart) separator).1
          (branches code lineStart (markerSpan code opener.start opener.stop lineStart)
            (markerSpan code close.start close.stop lineStart) separator).2) := by
  cases separator with
  | none =>
    simp only [branches, Markers.fill, Markers.separatorChars, Option.map_none, Option.elim_none,
      List.append_nil]
    exact slice_construct hopen hclose hle
  | some found =>
    obtain ⟨hfound, hbefore, hafter⟩ := hseparator found rfl
    have hfirst := markerSpan_le_markerSpan hopen hfound hbefore lineStart
    have hsecond := markerSpan_le_markerSpan hfound hclose hafter lineStart
    have hopenSpan := hopen.markerSpan_le lineStart
    have hfoundSpan := hfound.markerSpan_le lineStart
    have hcloseSpan := hclose.markerSpan_le lineStart
    simp only [branches, Markers.fill, Markers.separatorChars, Option.map_some, Option.elim_some]
    rw [← slice_append_slice (Nat.le_trans hopenSpan (Nat.le_trans hfirst hfoundSpan))
        (Nat.le_trans hsecond hcloseSpan),
      slice_construct hopen hfound hbefore, slice_between hfound hclose hafter]
    simp only [List.append_assoc]

section
variable (hcut : IsCut code pos) (hpos : pos ≤ opener.start)
  (hopen : MarkerAt code opener.start opener.stop opener.item)

include hcut hpos hopen

theorem exists_markers_of_block {name : List Char} {close : Found Turn}
    (hitem : opener.item = .blockBegin name)
    (h : blockEnd? name opener.stop (code.drop opener.stop) = some close) :
    let openSpan := markerSpan code opener.start opener.stop lineStart
    let closeSpan := markerSpan code close.start close.stop lineStart
    ∃ ms, markersAt? code lineStart opener = some ms
      ∧ Construct.IsFilled code pos ⟨openSpan.1, closeSpan.2,
        .block (String.ofList name) (bodyAt code lineStart openSpan.2 closeSpan.1)⟩ ms := by
  intro openSpan closeSpan
  obtain ⟨hclose, hle⟩ := markerAt_of_blockEnd? h
  rw [hitem] at hopen
  refine ⟨⟨extentAt code lineStart opener, none, extentAt code lineStart close⟩, ?_, ?_⟩
  · rw [markersAt?, hitem]
    simp only [h, Option.map_some]
  · constructor
    · exact hcut.le_markerSpan hpos (Nat.lt_of_lt_of_le hopen.start_lt hopen.stop_le) _ _
    · exact start_le_of_markers hopen hclose hle
    · rw [Markers.AreOf, Markers.AreOfBlock, String.toList_ofList]
      exact ⟨isOf_extentAt hopen, isOf_extentAt hclose⟩
    · exact slice_construct hopen hclose hle
    · exact isCut_markerSpan hclose lineStart

theorem exists_markers_of_loopAt {header : List Char} (hitem : opener.item = .loopBegin header)
    (h : loopAt code lineStart opener header = .ok c) :
    ∃ ms, markersAt? code lineStart opener = some ms ∧ c.IsFilled code pos ms := by
  obtain ⟨-, close, parsed, hend, hparse, rfl⟩ := loopAt_eq_ok_iff.1 h
  obtain ⟨hclose, hle⟩ := markerAt_of_loopEnd? hend
  rw [hitem] at hopen
  refine ⟨⟨extentAt code lineStart opener, none, extentAt code lineStart close⟩, ?_, ?_⟩
  · rw [markersAt?, hitem]
    simp only [hend, Option.map_some]
  · constructor
    · exact hcut.le_markerSpan hpos (Nat.lt_of_lt_of_le hopen.start_lt hopen.stop_le) _ _
    · exact start_le_of_markers hopen hclose hle
    · exact ⟨⟨header, hparse, isOf_extentAt hopen⟩, isOf_extentAt hclose⟩
    · exact slice_construct hopen hclose hle
    · exact isCut_markerSpan hclose lineStart

theorem exists_markers_of_conditionalAt {condition : List Char}
    (hitem : opener.item = .ifBegin condition)
    (h : conditionalAt code lineStart opener condition = .ok c) :
    ∃ ms, markersAt? code lineStart opener = some ms ∧ c.IsFilled code pos ms := by
  obtain ⟨-, separator, close, parsed, hends, hparse, rfl⟩ := conditionalAt_eq_ok_iff.1 h
  obtain ⟨⟨hclose, hle⟩, hseparator⟩ := markerAt_of_ifEnds hends
  rw [hitem] at hopen
  refine ⟨⟨extentAt code lineStart opener, separator.map (extentAt code lineStart),
    extentAt code lineStart close⟩, ?_, ?_⟩
  · rw [markersAt?, hitem]
    simp only [hends, Except.toOption, Option.map_some]
  · constructor
    · exact hcut.le_markerSpan hpos (Nat.lt_of_lt_of_le hopen.start_lt hopen.stop_le) _ _
    · exact start_le_of_markers hopen hclose hle
    · refine ⟨⟨condition, hparse, isOf_extentAt hopen⟩, ?_, isOf_extentAt hclose⟩
      intro e he
      obtain ⟨found, hfound, rfl⟩ := Option.map_eq_some_iff.1 he
      exact isOf_extentAt (hseparator found hfound).1
    · exact slice_branches hopen hclose hle hseparator parsed
    · exact isCut_markerSpan hclose lineStart

end

/-- What stands between a cut and the end of the next construct is what stands before the construct,
    and its bodies with its markers around them. -/
theorem exists_markers_of_nextConstruct? (hcut : IsCut code pos)
    (h : nextConstruct? code lineStart pos = .ok (some c)) :
    ∃ ms, nextMarkers? code lineStart pos = some ms ∧ c.IsFilled code pos ms := by
  obtain ⟨opener, hfind, h⟩ := nextConstruct?_eq_some_iff.1 h
  obtain ⟨hopen, hpos⟩ := markerAt_of_find?_opener? hfind
  rw [nextMarkers?, hfind, Option.bind_some]
  obtain ⟨header, hitem, h⟩ | ⟨condition, hitem, h⟩ | ⟨name, close, hitem, hclose, rfl⟩ :=
    constructAt_cases h
  · exact exists_markers_of_loopAt hcut hpos hopen hitem h
  · exact exists_markers_of_conditionalAt hcut hpos hopen hitem h
  · exact exists_markers_of_block hcut hpos hopen hitem hclose

end

end BlockTemplate
