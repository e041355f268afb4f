import BlockTemplate.Proofs.Markup.Levels
import BlockTemplate.Proofs.Markup.Window
import BlockTemplate.Proofs.Outcome

/-!
# Places of markers

The markers of a construct are found one behind the other, and so are their extents, however far
they reach over blanks and line breaks. The bodies of the construct are the windows between them.

## Key results

- `Places.areMarkers_of_placesAt?`: at the places of a construct there are markers, in their order
- `Places.inOrder_of_placesAt?`: behind a cut the extents of the markers of a construct are in order
- `Places.AreMarkers.isWindow`: between two extents there is a window
-/

namespace BlockTemplate

/-- The places of the markers of a construct: of each the position of its start, and the position
    behind it. -/
structure Places where
  opening : Nat × Nat
  separator : Option (Nat × Nat)
  closing : Nat × Nat

/-- The place of a find. -/
def Found.place {α : Type} (found : Found α) : Nat × Nat := (found.start, found.stop)

/-- The places of the markers of the construct with its opening marker at a place. -/
def placesAt? (code : List Char) (opener : Found Marker) : Option Places :=
  let after := code.drop opener.stop
  match opener.item with
  | .blockBegin name =>
    (blockEnd? name opener.stop after).map fun close => ⟨opener.place, none, close.place⟩
  | .loopBegin _ =>
    (loopEnd? opener.stop after).map fun close => ⟨opener.place, none, close.place⟩
  | .ifBegin _ => (ifEnds opener.stop after).toOption.map fun (separator, close) =>
    ⟨opener.place, separator.map Found.place, close.place⟩
  | _ => none

/-- The extent of the marker at a place. -/
def extentOf (code : List Char) (lineStart : Bool) (place : Nat × Nat) : Nat × Nat :=
  markerSpan code place.1 place.2 lineStart

namespace Places

/-- The texts between the extents of the markers. -/
def between (code : List Char) (lineStart : Bool) (p : Places) : List (List Char) :=
  let first := (extentOf code lineStart p.opening).2
  let last := (extentOf code lineStart p.closing).1
  match p.separator with
  | none => [slice code first last]
  | some place =>
    [slice code first (extentOf code lineStart place).1,
      slice code (extentOf code lineStart place).2 last]

/-- The positions between which the bodies stand: from the end of one extent to the start of the
    next. -/
def gaps (code : List Char) (lineStart : Bool) (p : Places) : List (Nat × Nat) :=
  let first := (extentOf code lineStart p.opening).2
  let last := (extentOf code lineStart p.closing).1
  match p.separator with
  | none => [(first, last)]
  | some place =>
    [(first, (extentOf code lineStart place).1), ((extentOf code lineStart place).2, last)]

theorem between_eq (code : List Char) (lineStart : Bool) (p : Places) :
    p.between code lineStart
      = (p.gaps code lineStart).map fun gap => slice code gap.1 gap.2 := by
  rw [between, gaps]
  cases p.separator <;> rfl

/-- Whether the places are those of the markers of a construct: it reaches from the first extent to
    the last one, and its bodies are the texts between them. -/
structure AreOf (code : List Char) (lineStart : Bool) (p : Places) (c : Construct) : Prop where
  start : c.start = (extentOf code lineStart p.opening).1
  stop : c.stop = (extentOf code lineStart p.closing).2
  bodies : ∀ body ∈ c.kind.bodies, body.code = [] ∨ body.code ∈ p.between code lineStart

/-- Whether a construct reaches from the first extent to the last one, and its bodies are what
    stands in the gaps. A branch without a separator in front of it stands nowhere. -/
structure Hold (code : List Char) (lineStart : Bool) (p : Places) (c : Construct) : Prop where
  start : c.start = (extentOf code lineStart p.opening).1
  stop : c.stop = (extentOf code lineStart p.closing).2
  bodies : ∀ body ∈ c.kind.bodies, body = ⟨[], true⟩
    ∨ ∃ gap ∈ p.gaps code lineStart, body = bodyAt code lineStart gap.1 gap.2

theorem Hold.areOf {code : List Char} {lineStart : Bool} {p : Places} {c : Construct}
    (h : p.Hold code lineStart c) : p.AreOf code lineStart c where
  start := h.start
  stop := h.stop
  bodies body hbody := by
    rcases h.bodies body hbody with rfl | ⟨gap, hgap, rfl⟩
    · exact .inl rfl
    · rw [between_eq]
      exact .inr (List.mem_map_of_mem hgap)

/-- Whether there are markers at the places, in their order. -/
structure AreMarkers (code : List Char) (p : Places) : Prop where
  opening : ∃ m, MarkerAt code p.opening.1 p.opening.2 m
  separator : ∀ place ∈ p.separator, (∃ m, MarkerAt code place.1 place.2 m)
    ∧ p.opening.2 ≤ place.1 ∧ place.2 ≤ p.closing.1
  closing : ∃ m, MarkerAt code p.closing.1 p.closing.2 m
  apart : p.opening.2 ≤ p.closing.1

end Places

section
variable {code : List Char} {lineStart : Bool} {pos : Nat}

/-- Two markers, and no third between them. -/
theorem Places.areMarkers_of_pair {start stop start' stop' : Nat} {m m' : Marker}
    (h : MarkerAt code start stop m) (h' : MarkerAt code start' stop' m') (hle : stop ≤ start') :
    AreMarkers code ⟨(start, stop), none, (start', stop')⟩ where
  opening := ⟨m, h⟩
  separator _ hplace := absurd hplace (Option.not_mem_none _)
  closing := ⟨m', h'⟩
  apart := hle

/-- The markers of a construct are found one behind the other. -/
theorem Places.areMarkers_of_placesAt? {opener : Found Marker}
    (hopen : MarkerAt code opener.start opener.stop opener.item) {p : Places}
    (h : placesAt? code opener = some p) : p.opening = opener.place ∧ p.AreMarkers code := by
  unfold placesAt? at h
  dsimp only at h
  split at h
  · obtain ⟨close, hend, rfl⟩ := Option.map_eq_some_iff.1 h
    obtain ⟨hclose, hle⟩ := markerAt_of_blockEnd? hend
    exact ⟨rfl, areMarkers_of_pair hopen hclose hle⟩
  · obtain ⟨close, hend, rfl⟩ := Option.map_eq_some_iff.1 h
    obtain ⟨hclose, hle⟩ := markerAt_of_loopEnd? hend
    exact ⟨rfl, areMarkers_of_pair hopen hclose hle⟩
  · obtain ⟨⟨separator, close⟩, hends, rfl⟩ := Option.map_eq_some_iff.1 h
    -- a separator lies between the other two markers
    have hends : ifEnds opener.stop (code.drop opener.stop) = .ok (separator, close) := by
      cases hresult : ifEnds opener.stop (code.drop opener.stop) with
      | error e => rw [hresult] at hends; exact nomatch hends
      | ok ends => rw [hresult] at hends; exact congrArg _ (Option.some.inj hends)
    obtain ⟨⟨hclose, hle⟩, hseparator⟩ := markerAt_of_ifEnds hends
    refine ⟨rfl, { areMarkers_of_pair hopen hclose hle with separator := ?_ }⟩
    intro place hplace
    obtain ⟨found, hfound, rfl⟩ := Option.map_eq_some_iff.1 hplace
    obtain ⟨hmarker, hbefore, hafter⟩ := hseparator found hfound
    exact ⟨⟨_, hmarker⟩, hbefore, hafter⟩
  · exact nomatch h

/-- Between two extents there is a window. -/
theorem Places.AreMarkers.isWindow {p : Places} (h : p.AreMarkers code) {gap : Nat × Nat}
    (hgap : gap ∈ p.gaps code lineStart) : IsWindow code gap.1 gap.2 := by
  obtain ⟨m, hopen⟩ := h.opening
  obtain ⟨m', hclose⟩ := h.closing
  unfold Places.gaps at hgap
  dsimp only at hgap
  split at hgap
  · obtain rfl := List.mem_singleton.1 hgap
    exact isWindow_between hopen hclose h.apart lineStart
  · rename_i place hplace
    obtain ⟨⟨_, hmarker⟩, hbefore, hafter⟩ := h.separator place hplace
    rcases List.mem_cons.1 hgap with rfl | hgap
    · exact isWindow_between hopen hmarker hbefore lineStart
    · obtain rfl := List.mem_singleton.1 hgap
      exact isWindow_between hmarker hclose hafter lineStart

/-! ## Constructs at their places -/

variable {opener : Found Marker} {c : Construct}

theorem exists_places_of_loopAt {header : List Char} (hitem : opener.item = .loopBegin header)
    (h : loopAt code lineStart opener header = .ok c) :
    ∃ p, placesAt? code opener = some p ∧ p.Hold code lineStart c := by
  obtain ⟨-, close, parsed, hend, -, rfl⟩ := loopAt_eq_ok_iff.1 h
  refine ⟨⟨opener.place, none, close.place⟩, ?_, rfl, rfl, ?_⟩
  · rw [placesAt?, hitem]
    simp only [hend, Option.map_some]
  · exact List.forall_mem_singleton.2 (.inr ⟨_, List.mem_cons_self, rfl⟩)

theorem exists_places_of_conditionalAt {condition : List Char}
    (hitem : opener.item = .ifBegin condition)
    (h : conditionalAt code lineStart opener condition = .ok c) :
    ∃ p, placesAt? code opener = some p ∧ p.Hold code lineStart c := by
  obtain ⟨-, separator, close, parsed, hends, -, rfl⟩ := conditionalAt_eq_ok_iff.1 h
  refine ⟨⟨opener.place, separator.map Found.place, close.place⟩, ?_, rfl, rfl, ?_⟩
  · rw [placesAt?, hitem]
    simp only [hends, Except.toOption, Option.map_some]
  · cases separator with
    | none =>
      -- without a separator the second body is empty
      exact List.forall_mem_cons.2 ⟨.inr ⟨_, List.mem_cons_self, rfl⟩,
        List.forall_mem_singleton.2 (.inl rfl)⟩
    | some found =>
      exact List.forall_mem_cons.2 ⟨.inr ⟨_, List.mem_cons_self, rfl⟩,
        List.forall_mem_singleton.2 (.inr ⟨_, List.mem_cons_of_mem _ List.mem_cons_self, rfl⟩)⟩

theorem exists_places_of_block (lineStart : Bool) {name : List Char} {close : Found Turn}
    (hitem : opener.item = .blockBegin name)
    (h : blockEnd? name opener.stop (code.drop opener.stop) = some close) :
    ∃ c p, constructAt code lineStart opener = .ok (some c) ∧ placesAt? code opener = some p
      ∧ p.Hold code lineStart c := by
  have hconstruct : constructAt code lineStart opener
      = .ok (some ⟨(extentOf code lineStart opener.place).1,
        (extentOf code lineStart close.place).2,
        .block (String.ofList name) (bodyAt code lineStart (extentOf code lineStart opener.place).2
          (extentOf code lineStart close.place).1)⟩) := by
    rw [constructAt, hitem]
    simp only [h]
    rfl
  refine ⟨_, ⟨opener.place, none, close.place⟩, hconstruct, ?_, rfl, rfl,
    List.forall_mem_singleton.2 (.inr ⟨_, List.mem_cons_self, rfl⟩)⟩
  rw [placesAt?, hitem]
  simp only [h, Option.map_some]

/-- The bodies of a construct stand in the gaps between its markers. -/
theorem exists_places_of_constructAt (h : constructAt code lineStart opener = .ok (some c)) :
    ∃ p, placesAt? code opener = some p ∧ p.Hold code lineStart c := by
  obtain ⟨header, hitem, hat⟩ | ⟨condition, hitem, hat⟩ | ⟨name, close, hitem, hclose, -⟩ :=
    constructAt_cases h
  · exact exists_places_of_loopAt hitem hat
  · exact exists_places_of_conditionalAt hitem hat
  · obtain ⟨d, p, hd, hplaces⟩ := exists_places_of_block lineStart hitem hclose
    rw [h] at hd
    cases hd
    exact ⟨p, hplaces⟩

end

end BlockTemplate
