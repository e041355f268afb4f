import BlockTemplate.Proofs.Template.Iterations

/-!
# Lines within bodies

Compiling a unit goes into the bodies of its constructs, and from there into theirs. A body is
compiled as a text of its own, with a flag that tells whether it starts at the beginning of a line.
So its markers have the extents that they have in the unit, at every depth, unless one is the last
thing in the body, where it takes the end of the body for the end of its line.

## Key results

- `exists_goesInto_of_mem_bodies`: what compiling a unit goes into
- `markerSpan_nested_iff`: when the extent of a marker in a body is that in the unit
-/

namespace BlockTemplate

/-- The bodies of the constructs of a unit, with the positions at which they start. -/
inductive GoesInto (code : List Char) (lineStart : Bool) : Nat → Body → Prop where
  | body {pos : Nat} {opener : Found Marker} {c : Construct} {p : Places} {gap : Nat × Nat} :
    Reaches code lineStart pos → find? opener? pos (code.drop pos) = some opener →
    constructAt code lineStart opener = .ok (some c) → placesAt? code opener = some p →
    gap ∈ p.gaps code lineStart → bodyAt code lineStart gap.1 gap.2 ∈ c.kind.bodies →
    GoesInto code lineStart gap.1 (bodyAt code lineStart gap.1 gap.2)

/-- The bodies within a unit, at any depth, with the positions of the unit at which they start. -/
inductive Nested (code : List Char) (lineStart : Bool) : Nat → Body → Prop where
  | here {offset : Nat} {body : Body} : GoesInto code lineStart offset body →
    Nested code lineStart offset body
  | within {offset offset' : Nat} {body body' : Body} : Nested code lineStart offset body →
    GoesInto body.code body.lineStart offset' body' →
    Nested code lineStart (offset + offset') body'

section
variable {code : List Char} {lineStart : Bool} {offset : Nat} {body : Body}

/-- Compiling goes into every body of every construct but the branch that has no separator in front
    of it, in which there is nothing. -/
theorem exists_goesInto_of_mem_bodies {pos : Nat} {c : Construct}
    (hpos : Reaches code lineStart pos) (hc : nextConstruct? code lineStart pos = .ok (some c))
    (hbody : body ∈ c.kind.bodies) :
    body = ⟨[], true⟩ ∨ ∃ offset, GoesInto code lineStart offset body := by
  obtain ⟨opener, hopener, hc⟩ := nextConstruct?_eq_some_iff.1 hc
  obtain ⟨p, hp, hhold⟩ := exists_places_of_constructAt hc
  rcases hhold.bodies body hbody with rfl | ⟨gap, hgap, rfl⟩
  · exact .inl rfl
  · exact .inr ⟨gap.1, .body hpos hopener hc hp hgap hbody⟩

theorem GoesInto.exists_isWindow (h : GoesInto code lineStart offset body) :
    ∃ stop, IsWindow code offset stop ∧ body = bodyAt code lineStart offset stop := by
  cases h with
  | body _ hopener _ hp hgap _ =>
    obtain ⟨hopen, -⟩ := markerAt_of_find?_opener? hopener
    exact ⟨_, (Places.areMarkers_of_placesAt? hopen hp).2.isWindow hgap, rfl⟩

/-- A body is a slice of the unit. -/
theorem Nested.code_eq (h : Nested code lineStart offset body) :
    body.code = slice code offset (offset + body.code.length) := by
  induction h with
  | here h =>
    obtain ⟨last, -, rfl⟩ := h.exists_isWindow
    exact (slice_length_slice code _ last).symm
  | @within offset offset' body _ _ h ih =>
    obtain ⟨last, hwindow, rfl⟩ := h.exists_isWindow
    have hle := Nat.le_of_lt (Nat.lt_of_le_of_lt hwindow.start_le hwindow.stop_lt)
    have hlast : offset' + (slice body.code offset' last).length ≤ body.code.length := by
      rw [slice, List.length_take, List.length_drop]
      omega
    generalize hwidth : (slice body.code offset' last).length = width at hlast
    -- a slice of a slice is a slice
    have hslice : slice body.code offset' (offset' + width)
        = slice code (offset + offset') (offset + (offset' + width)) := by
      conv_lhs => rw [ih]
      refine slice_slice ?_
      rw [← ih]
      exact hlast
    rw [← hwidth, slice_length_slice, ← Nat.add_assoc] at hslice
    exact hslice

theorem shifted_shifted (offset offset' : Nat) (span : Nat × Nat) :
    shifted offset (shifted offset' span) = shifted (offset + offset') span := by
  simp only [shifted, Nat.add_assoc]

theorem shifted_inj {span span' : Nat × Nat} :
    shifted offset span = shifted offset span' ↔ span = span' := by
  simp only [shifted, Prod.ext_iff, Nat.add_left_cancel_iff]

/-- The markers in a body are markers of the unit, and their extents are those that they have there,
    unless a marker takes the end of the body for the end of its line. -/
theorem markerSpan_nested_iff (h : Nested code lineStart offset body) {start stop : Nat}
    {m : Marker} (hm : MarkerAt body.code start stop m) :
    MarkerAt code (offset + start) (offset + stop) m
      ∧ (shifted offset (markerSpan body.code start stop body.lineStart)
          = markerSpan code (offset + start) (offset + stop) lineStart
        ↔ ¬MistakesEnd body.code body.lineStart start stop) := by
  induction h generalizing start stop with
  | here h =>
    obtain ⟨last, hwindow, rfl⟩ := h.exists_isWindow
    exact ⟨hm.of_slice hwindow.start_le,
      markerSpan_window_iff hwindow hm.start_le hm.stop_le lineStart⟩
  | within _ h ih =>
    obtain ⟨last, hwindow, rfl⟩ := h.exists_isWindow
    -- in the body around it, the marker is followed by another one, so that it ends no line there
    obtain ⟨hunit, hspan⟩ := ih (hm.of_slice hwindow.start_le)
    have hspan := hspan.2 (hwindow.not_mistakesEnd hm.stop_le _ _)
    rw [Nat.add_assoc, Nat.add_assoc, ← hspan, ← shifted_shifted, shifted_inj]
    exact ⟨hunit, markerSpan_window_iff hwindow hm.start_le hm.stop_le _⟩

end

/-- Three blocks, one in the other. The beginning of the innermost one stands on a line with text,
    and the other two end on one line. -/
def sharedLines : List Char :=
  "<!-- BEGIN: A -->\n<!-- BEGIN: B -->\n  <!-- BEGIN: C --> y\n<!-- END: C -->\n".toList
    ++ "  <!-- END: B --><!-- END: A -->".toList

/-- The body of the outer block. -/
def outerBody : Body := bodyAt sharedLines true 18 91

/-- The body of the block in it. -/
def innerBody : Body := bodyAt outerBody.code outerBody.lineStart 18 56

theorem goesInto_outerBody : GoesInto sharedLines true 18 outerBody := by
  refine @GoesInto.body _ _ 0 ⟨0, 17, .blockBegin ['A']⟩ ⟨0, 106, .block "A" outerBody⟩
    ⟨(0, 17), none, (91, 106)⟩ (18, 91) .start ?_ ?_ ?_ ?_ ?_
  · rfl
  · rfl
  · rfl
  · decide
  · exact List.mem_singleton_self _

theorem goesInto_innerBody : GoesInto outerBody.code outerBody.lineStart 18 innerBody := by
  refine @GoesInto.body _ _ 0 ⟨0, 17, .blockBegin ['B']⟩ ⟨0, 73, .block "B" innerBody⟩
    ⟨(0, 17), none, (58, 73)⟩ (18, 56) .start ?_ ?_ ?_ ?_ ?_
  · rfl
  · rfl
  · rfl
  · decide
  · exact List.mem_singleton_self _

/-- The beginning of the innermost block keeps its indent, two levels deep as in the unit. -/
theorem markerSpan_nested_iff_of_innerBody :
    Nested sharedLines true 36 innerBody ∧ MarkerAt innerBody.code 2 19 (.blockBegin ['C'])
      ∧ MarkerAt sharedLines 38 55 (.blockBegin ['C'])
      ∧ ¬MistakesEnd innerBody.code innerBody.lineStart 2 19
      ∧ shifted 36 (markerSpan innerBody.code 2 19 innerBody.lineStart)
        = markerSpan sharedLines 38 55 true := by
  have hnested : Nested sharedLines true 36 innerBody :=
    .within (.here goesInto_outerBody) goesInto_innerBody
  have hmarker : MarkerAt innerBody.code 2 19 (.blockBegin ['C']) := ⟨by decide, rfl⟩
  have hgoesOn : ¬MistakesEnd innerBody.code innerBody.lineStart 2 19 := by
    rintro ⟨-, hblank, -⟩
    exact absurd (hblank 'y' (by decide)) (by decide)
  obtain ⟨hunit, hspan⟩ := markerSpan_nested_iff hnested hmarker
  exact ⟨hnested, hmarker, hunit, hgoesOn, hspan.2 hgoesOn⟩

/-- The end of the second block loses its indent in the body of the first one, while in the unit it
    keeps it. -/
theorem markerSpan_outerBody_ne :
    GoesInto sharedLines true 18 outerBody ∧ MarkerAt outerBody.code 58 73 (.blockEnd ['B'])
      ∧ markerSpan outerBody.code 58 73 outerBody.lineStart = (56, 73)
      ∧ markerSpan sharedLines (18 + 58) (18 + 73) true = (18 + 58, 18 + 73)
      ∧ shifted 18 (markerSpan outerBody.code 58 73 outerBody.lineStart)
        ≠ markerSpan sharedLines (18 + 58) (18 + 73) true := by
  have hbody : markerSpan outerBody.code 58 73 outerBody.lineStart = (56, 73) := rfl
  have hunit : markerSpan sharedLines (18 + 58) (18 + 73) true = (18 + 58, 18 + 73) := rfl
  refine ⟨goesInto_outerBody, ⟨by decide, rfl⟩, hbody, hunit, ?_⟩
  rw [hbody, hunit]
  decide

end BlockTemplate
