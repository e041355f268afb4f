import BlockTemplate.Markup.Line
import BlockTemplate.Markup.LoopHeader
import BlockTemplate.Markup.Marker

/-!
# Constructs

A construct is a block, a loop or a conditional from its opening marker to its end marker.
`nextConstruct?` finds the first construct in a text and cuts out its bodies; it also says what is
wrong with its markers.
-/

namespace BlockTemplate

/-- The text between markers, and whether it starts at the beginning of a line. -/
structure Body where
  code : List Char
  lineStart : Bool

/-- The kinds of constructs with their bodies. -/
inductive ConstructKind where
  | block (name : String) (body : Body)
  | loop (header : LoopHeader) (body : Body)
  | conditional (condition : Condition) (ifBody elseBody : Body)

/-- The bodies of a construct. -/
def ConstructKind.bodies : ConstructKind → List Body
  | block _ body => [body]
  | loop _ body => [body]
  | conditional _ ifBody elseBody => [ifBody, elseBody]

/-- A construct with the extent of its markers and of all between them. -/
structure Construct where
  start : Nat
  stop : Nat
  kind : ConstructKind

/-- The body that starts at a position, which is behind a marker. -/
def bodyAt (code : List Char) (lineStart : Bool) (start stop : Nat) : Body :=
  ⟨slice code start stop, positionBeginsLine code start lineStart⟩

/-- The loop with its opening marker at a place. -/
def loopAt (code : List Char) (lineStart : Bool) (opener : Found Marker) (header : List Char) :
    Except CompileError Construct :=
  let source := String.ofList (slice code opener.start opener.stop)
  if header.isEmpty then .error (.emptyLoopHeader source)
  -- a missing end counts before a malformed header
  else match loopEnd? opener.stop (code.drop opener.stop), LoopHeader.parse? header with
    | none, _ => .error (.loopNotClosed source)
    | some _, none => .error (.malformedLoopHeader source)
    | some close, some parsed =>
      let openSpan := markerSpan code opener.start opener.stop lineStart
      let closeSpan := markerSpan code close.start close.stop lineStart
      .ok ⟨openSpan.1, closeSpan.2, .loop parsed (bodyAt code lineStart openSpan.2 closeSpan.1)⟩

/-- The branches of a conditional between the extents of its markers. -/
def branches (code : List Char) (lineStart : Bool) (openSpan closeSpan : Nat × Nat)
    (separator : Option (Found BranchTurn)) : Body × Body :=
  match separator with
  -- without a separator the other branch is empty
  | none => (bodyAt code lineStart openSpan.2 closeSpan.1, ⟨[], true⟩)
  | some found =>
    let elseSpan := markerSpan code found.start found.stop lineStart
    (bodyAt code lineStart openSpan.2 elseSpan.1, bodyAt code lineStart elseSpan.2 closeSpan.1)

/-- The conditional with its opening marker at a place. -/
def conditionalAt (code : List Char) (lineStart : Bool) (opener : Found Marker)
    (condition : List Char) : Except CompileError Construct :=
  let source := String.ofList (slice code opener.start opener.stop)
  if condition.isEmpty then .error (.emptyCondition source)
  -- markers that do not fit count before a condition that cannot be read
  else match ifEnds opener.stop (code.drop opener.stop), Condition.parse condition with
    | .error .notClosed, _ => .error (.conditionNotClosed source)
    | .error .duplicateElse, _ => .error (.duplicateElse source)
    | .ok _, .error e => .error e
    | .ok (separator, close), .ok parsed =>
      let openSpan := markerSpan code opener.start opener.stop lineStart
      let closeSpan := markerSpan code close.start close.stop lineStart
      let (ifBody, elseBody) := branches code lineStart openSpan closeSpan separator
      .ok ⟨openSpan.1, closeSpan.2, .conditional parsed ifBody elseBody⟩

/-- The construct with its opening marker at a place; a block without an end is none. -/
def constructAt (code : List Char) (lineStart : Bool) (opener : Found Marker) :
    Except CompileError (Option Construct) :=
  match opener.item with
  | .loopBegin header => (loopAt code lineStart opener header).map some
  | .ifBegin condition => (conditionalAt code lineStart opener condition).map some
  | .blockBegin name =>
    match blockEnd? name opener.stop (code.drop opener.stop) with
    | none => .ok none
    | some close =>
      let openSpan := markerSpan code opener.start opener.stop lineStart
      let closeSpan := markerSpan code close.start close.stop lineStart
      .ok (some ⟨openSpan.1, closeSpan.2,
        .block (String.ofList name) (bodyAt code lineStart openSpan.2 closeSpan.1)⟩)
  | _ => .ok none

/-- The first construct at or after a position. -/
def nextConstruct? (code : List Char) (lineStart : Bool) (pos : Nat) :
    Except CompileError (Option Construct) :=
  match find? opener? pos (code.drop pos) with
  | none => .ok none
  | some opener => constructAt code lineStart opener

/-! ## What a construct is made of -/

section
variable {code : List Char} {lineStart : Bool} {opener : Found Marker} {c : Construct}

/-- A loop has an end and a header that can be read. -/
theorem loopAt_eq_ok_iff {header : List Char} :
    loopAt code lineStart opener header = .ok c
      ↔ header ≠ [] ∧ ∃ close parsed, loopEnd? opener.stop (code.drop opener.stop) = some close
        ∧ LoopHeader.parse? header = some parsed
        ∧ c = ⟨(markerSpan code opener.start opener.stop lineStart).1,
          (markerSpan code close.start close.stop lineStart).2,
          .loop parsed (bodyAt code lineStart
            (markerSpan code opener.start opener.stop lineStart).2
            (markerSpan code close.start close.stop lineStart).1)⟩ := by
  unfold loopAt
  cases header with
  | nil => simp
  | cons d header =>
    cases loopEnd? opener.stop (code.drop opener.stop) with
    | none => simp
    | some close => cases LoopHeader.parse? (d :: header) <;> simp [eq_comm]

/-- A conditional has ends that fit and a condition that can be read. -/
theorem conditionalAt_eq_ok_iff {condition : List Char} :
    conditionalAt code lineStart opener condition = .ok c
      ↔ condition ≠ [] ∧ ∃ separator close parsed,
        ifEnds opener.stop (code.drop opener.stop) = .ok (separator, close)
        ∧ Condition.parse condition = .ok parsed
        ∧ c = ⟨(markerSpan code opener.start opener.stop lineStart).1,
          (markerSpan code close.start close.stop lineStart).2,
          .conditional parsed
            (branches code lineStart (markerSpan code opener.start opener.stop lineStart)
              (markerSpan code close.start close.stop lineStart) separator).1
            (branches code lineStart (markerSpan code opener.start opener.stop lineStart)
              (markerSpan code close.start close.stop lineStart) separator).2⟩ := by
  unfold conditionalAt
  cases condition with
  | nil => simp
  | cons d condition =>
    cases ifEnds opener.stop (code.drop opener.stop) with
    | error e => cases e <;> simp
    | ok ends =>
      obtain ⟨separator, close⟩ := ends
      cases Condition.parse (d :: condition) with
      | error e => simp
      | ok parsed =>
        constructor
        · rintro ⟨⟩
          exact ⟨List.cons_ne_nil _ _, separator, close, parsed, rfl, rfl, rfl⟩
        · rintro ⟨-, _, _, _, ⟨⟩, ⟨⟩, rfl⟩
          rfl

/-- What is found at an opening marker is a construct of the kind that the marker names, and a block
    has an end. -/
theorem constructAt_cases (h : constructAt code lineStart opener = .ok (some c)) :
    (∃ header, opener.item = .loopBegin header ∧ loopAt code lineStart opener header = .ok c)
      ∨ (∃ condition, opener.item = .ifBegin condition
        ∧ conditionalAt code lineStart opener condition = .ok c)
      ∨ ∃ name close, opener.item = .blockBegin name
        ∧ blockEnd? name opener.stop (code.drop opener.stop) = some close
        ∧ c = ⟨(markerSpan code opener.start opener.stop lineStart).1,
          (markerSpan code close.start close.stop lineStart).2,
          .block (String.ofList name) (bodyAt code lineStart
            (markerSpan code opener.start opener.stop lineStart).2
            (markerSpan code close.start close.stop lineStart).1)⟩ := by
  unfold constructAt at h
  split at h
  · rename_i header hitem
    refine .inl ⟨header, hitem, ?_⟩
    cases hat : loopAt code lineStart opener header with
    | error e => rw [hat] at h; exact nomatch h
    | ok d => rw [hat] at h; cases h; rfl
  · rename_i condition hitem
    refine .inr (.inl ⟨condition, hitem, ?_⟩)
    cases hat : conditionalAt code lineStart opener condition with
    | error e => rw [hat] at h; exact nomatch h
    | ok d => rw [hat] at h; cases h; rfl
  · rename_i name hitem
    split at h
    · exact nomatch h
    · rename_i close hclose
      cases h
      exact .inr (.inr ⟨name, close, hitem, hclose, rfl⟩)
  · exact nomatch h

/-- The first construct is the one at the first marker that opens one. -/
theorem nextConstruct?_eq_some_iff {pos : Nat} :
    nextConstruct? code lineStart pos = .ok (some c)
      ↔ ∃ opener, find? opener? pos (code.drop pos) = some opener
        ∧ constructAt code lineStart opener = .ok (some c) := by
  unfold nextConstruct?
  cases find? opener? pos (code.drop pos) <;> simp

end

/-! ## Constructs get smaller -/

/-- The construct ends behind the position, and its bodies are shorter than the text. -/
def Construct.Advances (code : List Char) (pos : Nat) (c : Construct) : Prop :=
  pos < code.length ∧ pos < c.stop ∧ ∀ body ∈ c.kind.bodies, body.code.length < code.length

theorem length_bodyAt_lt {code : List Char} {lineStart : Bool} {start : Nat} (stop : Nat)
    (hstart : 0 < start) (hcode : 0 < code.length) :
    (bodyAt code lineStart start stop).code.length < code.length :=
  length_slice_lt stop hstart hcode

variable {code : List Char} {lineStart : Bool} {opener : Found Marker} {c : Construct}

theorem loopAt_advances {header : List Char} {pos : Nat} (hpos : pos ≤ opener.start)
    (hlt : opener.start < opener.stop) (hcode : opener.stop ≤ code.length)
    (h : loopAt code lineStart opener header = .ok c) : c.Advances code pos := by
  obtain ⟨-, close, parsed, hclose, -, rfl⟩ := loopAt_eq_ok_iff.1 h
  have hmem := findAll_bounds fits_loopTurn? (mem_of_closing? hclose)
  have hopen := le_markerSpan_snd code opener.start opener.stop lineStart
  have hstop := le_markerSpan_snd code close.start close.stop lineStart
  refine ⟨by omega, by dsimp only; omega, ?_⟩
  simp only [ConstructKind.bodies, List.mem_singleton, forall_eq]
  exact length_bodyAt_lt _ (by omega) (by omega)

theorem branches_shorter (code : List Char) (lineStart : Bool) (openSpan closeSpan : Nat × Nat)
    (separator : Option (Found BranchTurn)) (hopen : 0 < openSpan.2) (hcode : 0 < code.length)
    (hsep : ∀ found ∈ separator, 0 < found.stop) :
    (branches code lineStart openSpan closeSpan separator).1.code.length < code.length ∧
      (branches code lineStart openSpan closeSpan separator).2.code.length < code.length := by
  cases separator with
  | none => exact ⟨length_bodyAt_lt _ hopen hcode, hcode⟩
  | some found =>
    have hfound := hsep found rfl
    have hspan := le_markerSpan_snd code found.start found.stop lineStart
    exact ⟨length_bodyAt_lt _ hopen hcode, length_bodyAt_lt _ (by omega) hcode⟩

theorem conditionalAt_advances {condition : List Char} {pos : Nat} (hpos : pos ≤ opener.start)
    (hlt : opener.start < opener.stop) (hcode : opener.stop ≤ code.length)
    (h : conditionalAt code lineStart opener condition = .ok c) : c.Advances code pos := by
  obtain ⟨-, separator, close, parsed, hends, -, rfl⟩ := conditionalAt_eq_ok_iff.1 h
  have ⟨hclose, hsep⟩ := mem_of_branchEnds hends
  have hmem := findAll_bounds fits_branchTurn? hclose
  have hopen := le_markerSpan_snd code opener.start opener.stop lineStart
  have hstop := le_markerSpan_snd code close.start close.stop lineStart
  have hshort := branches_shorter code lineStart
    (markerSpan code opener.start opener.stop lineStart)
    (markerSpan code close.start close.stop lineStart)
    separator (by omega) (by omega) (fun found hfound => by
      rcases hsep found hfound with hnone | hin
      · exact nomatch hnone
      · have := findAll_bounds fits_branchTurn? hin
        omega)
  refine ⟨by omega, by dsimp only at hmem ⊢; omega, ?_⟩
  simp only [ConstructKind.bodies, List.mem_cons, List.not_mem_nil, or_false]
  rintro body (rfl | rfl)
  · exact hshort.1
  · exact hshort.2

theorem constructAt_advances {pos : Nat} (hpos : pos ≤ opener.start)
    (hlt : opener.start < opener.stop) (hcode : opener.stop ≤ code.length)
    (h : constructAt code lineStart opener = .ok (some c)) : c.Advances code pos := by
  obtain ⟨header, -, h⟩ | ⟨condition, -, h⟩ | ⟨name, close, -, hclose, rfl⟩ := constructAt_cases h
  · exact loopAt_advances hpos hlt hcode h
  · exact conditionalAt_advances hpos hlt hcode h
  · have hmem := findAll_bounds (fits_blockTurn? _) (mem_of_closing? hclose)
    have hopen := le_markerSpan_snd code opener.start opener.stop lineStart
    have hstop := le_markerSpan_snd code close.start close.stop lineStart
    refine ⟨by omega, by dsimp only; omega, ?_⟩
    simp only [ConstructKind.bodies, List.mem_singleton, forall_eq]
    exact length_bodyAt_lt _ (by omega) (by omega)

theorem nextConstruct?_advances {pos : Nat}
    (h : nextConstruct? code lineStart pos = .ok (some c)) : c.Advances code pos := by
  obtain ⟨opener, hfound, h⟩ := nextConstruct?_eq_some_iff.1 h
  have hb := find?_bounds fits_opener? hfound
  simp only [List.length_drop] at hb
  exact constructAt_advances hb.1 hb.2.1 (by omega) h

end BlockTemplate
