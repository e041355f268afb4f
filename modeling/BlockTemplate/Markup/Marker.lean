import BlockTemplate.Text.Basic
import BlockTemplate.Text.Word

/-!
# Markers

The structure of a template is written in comments: `BEGIN: NAME` and `END: NAME` around a block,
`FOR` and `ENDFOR` around a loop, `IF`, `ELSE` and `ENDIF` around a conditional. A comment ends at
the first `-->` after its start.
-/

namespace BlockTemplate

/-- A comment that is part of the structure of a template. -/
inductive Marker where
  | blockBegin (name : List Char)
  | blockEnd (name : List Char)
  | loopBegin (header : List Char)
  | loopEnd
  | ifBegin (condition : List Char)
  | ifElse
  | ifEnd
deriving DecidableEq, Repr

/-- The text before the first occurrence of a pattern, and the text after it. -/
def splitAtPattern? (pattern : List Char) : List Char → Option (List Char × List Char)
  | [] => if pattern.isEmpty then some ([], []) else none
  | c :: rest =>
    match afterPattern? pattern (c :: rest) with
    | some after => some ([], after)
    | none => (splitAtPattern? pattern rest).map fun (before, after) => (c :: before, after)

/-- How a comment starts. -/
def commentStart : List Char := ['<', '!', '-', '-']

/-- How a comment ends. -/
def commentEnd : List Char := ['-', '-', '>']

/-- What the comment at the start of a text says. -/
def comment? (s : List Char) : Option (List Char) := do
  let (content, _) ← splitAtPattern? commentEnd (← afterPattern? commentStart s)
  return content

/-- The number of characters of a comment. -/
def commentSize (content : List Char) : Nat :=
  commentStart.length + content.length + commentEnd.length

/-- The name after a keyword, blanks in between. -/
def nameAfter? (keyword content : List Char) : Option (List Char) := do
  let name := (← afterPattern? keyword content).dropWhile isBlank
  if name.isEmpty || !name.all isWord then none else some name

/-- What follows a keyword, at least one blank in between. Nothing at all may follow, too. -/
def headerAfter? (keyword content : List Char) : Option (List Char) := do
  let rest ← afterPattern? keyword content
  let header := rest.dropWhile isBlank
  if rest.isEmpty || header.length < rest.length then some header else none

/-- The marker with the given content, which has no blanks around it. -/
def Marker.ofContent? (content : List Char) : Option Marker :=
  if content = ['E', 'N', 'D', 'F', 'O', 'R'] then some .loopEnd
  else if content = ['E', 'N', 'D', 'I', 'F'] then some .ifEnd
  else if content = ['E', 'L', 'S', 'E'] then some .ifElse
  else (nameAfter? ['B', 'E', 'G', 'I', 'N', ':'] content).map .blockBegin
    <|> (nameAfter? ['E', 'N', 'D', ':'] content).map .blockEnd
    <|> (headerAfter? ['F', 'O', 'R'] content).map .loopBegin
    <|> (headerAfter? ['I', 'F'] content).map .ifBegin

/-- The marker at the start of a text, and the number of its characters. -/
def marker? (s : List Char) : Option (Marker × Nat) := do
  let content ← comment? s
  let marker ← Marker.ofContent? (trimBlank content)
  return (marker, commentSize content)

/-- Something found in a text, with the positions of its start and of what follows it. -/
structure Found (α : Type) where
  start : Nat
  stop : Nat
  item : α
deriving Repr

variable {α : Type}

/-- The first thing that `recognize` finds in a text that starts at position `pos`. -/
def find? (recognize : List Char → Option (α × Nat)) (pos : Nat) : List Char → Option (Found α)
  | [] => none
  | c :: rest =>
    match recognize (c :: rest) with
    | some (item, size) => some ⟨pos, pos + size, item⟩
    | none => find? recognize (pos + 1) rest

/-- Everything that `recognize` finds in a text that starts at position `pos`, from the left and
    without overlap; the first `skipped` characters belong to an earlier find. -/
def findAll (recognize : List Char → Option (α × Nat)) (skipped pos : Nat) :
    List Char → List (Found α)
  | [] => []
  | c :: rest =>
    match skipped with
    | skipped + 1 => findAll recognize skipped (pos + 1) rest
    | 0 =>
      match recognize (c :: rest) with
      | some (item, size) =>
        ⟨pos, pos + size, item⟩ :: findAll recognize (size - 1) (pos + 1) rest
      | none => findAll recognize 0 (pos + 1) rest

/-- Whether a marker opens or closes a level of nesting. -/
inductive Turn where
  | opens
  | closes
deriving DecidableEq, Repr

/-- The first marker that closes what was open before the sequence, with `depth` levels opened
    since. -/
def closing? (depth : Nat) : List (Found Turn) → Option (Found Turn)
  | [] => none
  | found :: rest =>
    match found.item, depth with
    | .opens, depth => closing? (depth + 1) rest
    | .closes, 0 => some found
    | .closes, depth + 1 => closing? depth rest

/-- Beginnings and ends of blocks of one name. -/
def blockTurn? (name : List Char) (s : List Char) : Option (Turn × Nat) :=
  match marker? s with
  | some (.blockBegin other, size) => if other = name then some (.opens, size) else none
  | some (.blockEnd other, size) => if other = name then some (.closes, size) else none
  | _ => none

/-- The end marker of a block, in the text after its beginning, which starts at position `pos`. -/
def blockEnd? (name : List Char) (pos : Nat) (s : List Char) : Option (Found Turn) :=
  closing? 0 (findAll (blockTurn? name) 0 pos s)

/-- Beginnings and ends of loops. -/
def loopTurn? (s : List Char) : Option (Turn × Nat) :=
  match marker? s with
  | some (.loopBegin _, size) => some (.opens, size)
  | some (.loopEnd, size) => some (.closes, size)
  | _ => none

/-- The end marker of a loop, in the text after its beginning, which starts at position `pos`. -/
def loopEnd? (pos : Nat) (s : List Char) : Option (Found Turn) :=
  closing? 0 (findAll loopTurn? 0 pos s)

/-- Whether a marker of conditionals opens or closes a level, or separates branches. -/
inductive BranchTurn where
  | opens
  | separates
  | closes
deriving DecidableEq, Repr

/-- Markers of conditionals. -/
def branchTurn? (s : List Char) : Option (BranchTurn × Nat) :=
  match marker? s with
  | some (.ifBegin _, size) => some (.opens, size)
  | some (.ifElse, size) => some (.separates, size)
  | some (.ifEnd, size) => some (.closes, size)
  | _ => none

/-- Why the markers of a conditional do not fit. -/
inductive BranchError where
  | notClosed
  | duplicateElse
deriving DecidableEq, Repr

/-- The marker between the branches of a conditional, if there is one, and its end marker.
    `separator` is the former as far as it has been found, and `depth` levels have been opened since
    the beginning. -/
def branchEnds (depth : Nat) (separator : Option (Found BranchTurn)) :
    List (Found BranchTurn) → Except BranchError (Option (Found BranchTurn) × Found BranchTurn)
  | [] => .error .notClosed
  | found :: rest =>
    match found.item, depth with
    | .opens, depth => branchEnds (depth + 1) separator rest
    | .separates, 0 =>
      if separator.isSome then .error .duplicateElse else branchEnds 0 (some found) rest
    -- the separator of a conditional inside
    | .separates, depth + 1 => branchEnds (depth + 1) separator rest
    | .closes, 0 => .ok (separator, found)
    | .closes, depth + 1 => branchEnds depth separator rest

/-- The separator and the end marker of a conditional, in the text after its beginning. -/
def ifEnds (pos : Nat) (s : List Char) :
    Except BranchError (Option (Found BranchTurn) × Found BranchTurn) :=
  branchEnds 0 none (findAll branchTurn? 0 pos s)

/-- The marker at which a construct starts: a beginning of a loop or of a conditional, or of a block
    that is closed. -/
def opener? (s : List Char) : Option (Marker × Nat) :=
  match marker? s with
  | some (.blockBegin name, size) =>
    -- a block that is not closed is plain text
    if (blockEnd? name 0 (s.drop size)).isSome then some (.blockBegin name, size) else none
  | some (.loopBegin header, size) => some (.loopBegin header, size)
  | some (.ifBegin condition, size) => some (.ifBegin condition, size)
  | _ => none

/-! ## Where markers are found -/

theorem length_of_afterPattern? {pattern s after : List Char}
    (h : afterPattern? pattern s = some after) : pattern.length + after.length = s.length := by
  fun_induction afterPattern? pattern s <;> grind

theorem length_of_splitAtPattern? {pattern s before after : List Char}
    (h : splitAtPattern? pattern s = some (before, after)) :
    before.length + pattern.length + after.length = s.length := by
  induction s generalizing before with
  | nil => simp [splitAtPattern?] at h; simp [h]
  | cons c rest ih =>
    simp only [splitAtPattern?] at h
    split at h
    · rename_i hafter
      cases h
      simpa using length_of_afterPattern? hafter
    · obtain ⟨⟨before', after'⟩, hsplit, heq⟩ := Option.map_eq_some_iff.1 h
      cases heq
      have := ih hsplit
      simp at *
      omega

theorem size_of_marker? {s : List Char} {marker : Marker} {size : Nat}
    (h : marker? s = some (marker, size)) : 0 < size ∧ size ≤ s.length := by
  simp only [marker?, comment?, Option.bind_eq_bind, Option.pure_def, Option.bind_eq_some_iff,
    Option.some.injEq, Prod.mk.injEq] at h
  obtain ⟨content, ⟨rest, hstart, ⟨before, after⟩, hsplit, rfl⟩, _, -, -, rfl⟩ := h
  have h₁ := length_of_afterPattern? hstart
  have h₂ := length_of_splitAtPattern? hsplit
  simp [commentSize, commentStart, commentEnd] at *
  omega

/-- Whether what is recognized has at least one character, and lies within the text. -/
def Fits (recognize : List Char → Option (α × Nat)) : Prop :=
  ∀ {s item size}, recognize s = some (item, size) → 0 < size ∧ size ≤ s.length

theorem fits_blockTurn? (name : List Char) : Fits (blockTurn? name) := by
  intro s item size h
  unfold blockTurn? at h
  split at h <;> grind [→ size_of_marker?]

theorem fits_loopTurn? : Fits loopTurn? := by
  intro s item size h
  unfold loopTurn? at h
  split at h <;> grind [→ size_of_marker?]

theorem fits_branchTurn? : Fits branchTurn? := by
  intro s item size h
  unfold branchTurn? at h
  split at h <;> grind [→ size_of_marker?]

theorem fits_opener? : Fits opener? := by
  intro s item size h
  unfold opener? at h
  split at h <;> grind [→ size_of_marker?]

theorem find?_bounds {recognize : List Char → Option (α × Nat)} (hfits : Fits recognize)
    {pos : Nat} {s : List Char} {found : Found α} (h : find? recognize pos s = some found) :
    pos ≤ found.start ∧ found.start < found.stop ∧ found.stop ≤ pos + s.length := by
  induction s generalizing pos with
  | nil => simp [find?] at h
  | cons c rest ih =>
    simp only [find?] at h
    split at h
    · rename_i item size hrecognize
      cases h
      have := hfits hrecognize
      dsimp only
      omega
    · have := ih h
      simp
      omega

theorem findAll_bounds {recognize : List Char → Option (α × Nat)} (hfits : Fits recognize)
    {skipped pos : Nat} {s : List Char} {found : Found α}
    (h : found ∈ findAll recognize skipped pos s) :
    pos ≤ found.start ∧ found.start < found.stop ∧ found.stop ≤ pos + s.length := by
  induction s generalizing skipped pos with
  | nil => simp [findAll] at h
  | cons c rest ih =>
    -- what is found behind the first character is one position further on
    have step {skipped : Nat} (h : found ∈ findAll recognize skipped (pos + 1) rest) :
        pos ≤ found.start ∧ found.start < found.stop ∧
          found.stop ≤ pos + (c :: rest).length := by
      have := ih h
      simp
      omega
    simp only [findAll] at h
    split at h
    · exact step h
    · split at h
      · rename_i item size hrecognize
        rcases List.mem_cons.1 h with rfl | h
        · have := hfits hrecognize
          dsimp only
          omega
        · exact step h
      · exact step h

theorem mem_of_closing? {depth : Nat} {markers : List (Found Turn)} {found : Found Turn}
    (h : closing? depth markers = some found) : found ∈ markers := by
  fun_induction closing? depth markers <;> simp_all

theorem mem_of_branchEnds {depth : Nat} {separator : Option (Found BranchTurn)}
    {markers : List (Found BranchTurn)}
    {ends : Option (Found BranchTurn) × Found BranchTurn}
    (h : branchEnds depth separator markers = .ok ends) :
    ends.2 ∈ markers ∧ ∀ found ∈ ends.1, found ∈ separator ∨ found ∈ markers := by
  fun_induction branchEnds depth separator markers <;> simp_all <;> grind

end BlockTemplate
