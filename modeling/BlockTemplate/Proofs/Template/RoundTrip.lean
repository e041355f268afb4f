import BlockTemplate.Proofs.Template.Canonical
import BlockTemplate.Proofs.Template.Compile

/-!
# Compiling what is written

The source text of canonical nodes compiles to these nodes. A unit is compiled from its text, so
what has been compiled before a place does not matter for what stands behind it, and the induction
goes through the nodes with the text before them, and with literal text that waits for the next
construct.

## Key results

- `linesCompile_of_areCanonical`: the lines of canonical nodes compile to the nodes
- `children_compileUnit_childrenSource`: compiling undoes writing
-/

namespace BlockTemplate

/-- Whether compiling a unit from a position on gives the entries. -/
def Compiles (code : List Char) (path : BlockPath) (lineStart : Bool) (pos number : Nat)
    (entries : Children) : Prop :=
  ∃ index, compileFrom code path lineStart pos number = .ok ⟨entries, index⟩

/-! ## Compiling one construct -/

section
variable {code : List Char} {path : BlockPath} {lineStart : Bool} {pos number start stop : Nat}
  {inner others rest : Children}

theorem compiles_of_none (h : nextConstruct? code lineStart pos = .ok none) :
    Compiles code path lineStart pos number (dataEntries number (code.drop pos)) :=
  ⟨[], compileFrom_of_none h⟩

theorem compiles_of_block {name : String} {body : Body}
    (h : nextConstruct? code lineStart pos = .ok (some ⟨start, stop, .block name body⟩))
    (hinner : Compiles body.code (path ++ [.text name]) body.lineStart 0 0 inner)
    (hrest : Compiles code path lineStart stop
      (number + (dataEntries number (slice code pos start)).length) rest) :
    Compiles code path lineStart pos number (dataEntries number (slice code pos start)
      ++ (.text name, .block (.text name) (ofEntries inner)) :: rest) := by
  obtain ⟨innerIndex, hinner⟩ := hinner
  obtain ⟨restIndex, hrest⟩ := hrest
  exact ⟨_, compileFrom_of_block h hinner hrest⟩

theorem compiles_of_loop {header : LoopHeader} {body : Body}
    (h : nextConstruct? code lineStart pos = .ok (some ⟨start, stop, .loop header body⟩))
    (hinner : ∀ path, Compiles body.code path body.lineStart 0 0 inner)
    (hrest : Compiles code path lineStart stop
      (number + (dataEntries number (slice code pos start)).length + 1) rest) :
    Compiles code path lineStart pos number (dataEntries number (slice code pos start)
      ++ (.int ↑(number + (dataEntries number (slice code pos start)).length),
        .loop header (ofEntries inner)) :: rest) := by
  obtain ⟨innerIndex, hinner⟩ := hinner
    (path ++ [.int ↑(number + (dataEntries number (slice code pos start)).length)])
  obtain ⟨restIndex, hrest⟩ := hrest
  exact ⟨_, compileFrom_of_loop h hinner hrest⟩

theorem compiles_of_conditional {condition : Condition} {ifBody elseBody : Body}
    (h : nextConstruct? code lineStart pos
      = .ok (some ⟨start, stop, .conditional condition ifBody elseBody⟩))
    (hinner : ∀ path, Compiles ifBody.code path ifBody.lineStart 0 0 inner)
    (hothers : ∀ path, Compiles elseBody.code path elseBody.lineStart 0 0 others)
    (hrest : Compiles code path lineStart stop
      (number + (dataEntries number (slice code pos start)).length + 1) rest) :
    Compiles code path lineStart pos number (dataEntries number (slice code pos start)
      ++ (.int ↑(number + (dataEntries number (slice code pos start)).length),
        .conditional condition (ofEntries inner) (ofEntries others)) :: rest) := by
  let inside := path ++ [.int ↑(number + (dataEntries number (slice code pos start)).length)]
  obtain ⟨innerIndex, hinner⟩ := hinner (inside ++ [.int 0])
  obtain ⟨othersIndex, hothers⟩ := hothers (inside ++ [.int 1])
  obtain ⟨restIndex, hrest⟩ := hrest
  exact ⟨_, compileFrom_of_conditional h hinner hothers hrest⟩

end

/-! ## Compiling lines -/

theorem IsLiteral.ne_nil {s : List Char} (h : IsLiteral s) : s ≠ [] := by
  obtain ⟨t, rfl⟩ := h.ends_line
  simp

@[simp] theorem dataEntries_nil (number : Nat) : dataEntries number [] = [] := rfl

theorem dataEntries_of_literal {s : List Char} (h : IsLiteral s) (number : Nat) :
    dataEntries number s = [(.int ↑number, .data (dataChunks s))] := by
  simp [dataEntries, h.ne_nil]

/-- Whether the lines of nodes compile to the nodes behind every text that ends at a line, the
    literal text that waits before them first. -/
def LinesCompile (s : List Char) (number : Nat) (children : Children) : Prop :=
  ∀ ⦃front : List Char⦄ ⦃lineStart : Bool⦄, EndsAtLine front lineStart → ∀ path : BlockPath,
    Compiles (front ++ s ++ linesChars (childrenLines children)) path lineStart front.length number
      (dataEntries number s ++ children)

/-- The lines of a body stand in a text of their own. -/
theorem LinesCompile.inside {children : Children} (h : LinesCompile [] 0 children)
    (path : BlockPath) :
    Compiles (linesChars (childrenLines children)) path true 0 0 children :=
  h (rfl : EndsAtLine [] true) path

/-- What compiles behind every text that ends at a line compiles behind lines. -/
theorem LinesCompile.behind_lines {number : Nat} {rest : Children} (h : LinesCompile [] number rest)
    {front : List Char} {lineStart : Bool} (hfront : EndsAtLine front lineStart)
    {lines : List Line} (hlines : ∀ line ∈ lines ++ childrenLines rest, line.IsProper)
    (path : BlockPath) :
    Compiles (front ++ linesChars (lines ++ childrenLines rest)) path lineStart
      (front.length + linesWidth lines) number rest := by
  have hend := hfront.append_lines fun line hl => hlines line (List.mem_append_left _ hl)
  have hbehind := h hend path
  rwa [List.append_nil, List.append_assoc, ← linesChars_append, List.length_append] at hbehind

section
variable {s : List Char}

/-- The text that waits is literal text or none, and holds no marker. -/
theorem quiet_of_waits (hs : s = [] ∨ IsLiteral s) : Quiet s := by
  rcases hs with rfl | hs
  · trivial
  · exact hs.quiet

/-- What follows the text that waits starts where a line does. -/
theorem EndsAtLine.append_of_waits {front : List Char} {lineStart : Bool}
    (h : EndsAtLine front lineStart) (hs : s = [] ∨ IsLiteral s) :
    EndsAtLine (front ++ s) lineStart := by
  rcases hs with rfl | hs
  · rwa [List.append_nil]
  · obtain ⟨t, rfl⟩ := hs.ends_line
    rw [← List.append_assoc]
    exact endsAtLine_of_newline _ _

theorem slice_waits (front s after : List Char) :
    slice (front ++ s ++ after) front.length (front ++ s).length = s := by
  rw [List.append_assoc, List.length_append, slice_append]

/-- Where no construct is left, what waits is the last node. -/
theorem LinesCompile.nil (hs : s = [] ∨ IsLiteral s) (number : Nat) : LinesCompile s number [] := by
  intro front lineStart _ path
  have hcompiles : Compiles _ path _ _ number _ :=
    compiles_of_none (nextConstruct?_eq_none (quiet_of_waits hs) front lineStart)
  rw [List.drop_left] at hcompiles
  rwa [childrenLines, linesChars_nil, List.append_nil, List.append_nil]

/-- The text of a node waits for what comes behind it. -/
theorem LinesCompile.data {text : List Char} (htext : IsLiteral text) {number : Nat}
    {rest : Children} (hrest : LinesCompile text number rest) :
    LinesCompile [] number ((.int number, .data (dataChunks text)) :: rest) := by
  intro front lineStart hfront path
  have hcompiles := hrest hfront path
  rw [dataEntries_of_literal htext] at hcompiles
  rw [childrenLines_int_cons, Node.lines, toList_chunksSource_dataChunks, linesChars_append,
    List.append_nil, ← List.append_assoc]
  simpa [Line.chars, dataEntries_nil] using hcompiles

variable {number : Nat} {inner others rest : Children} (hs : s = [] ∨ IsLiteral s)
  (hinner : LinesCompile [] 0 inner) (hdistinct : DistinctKeys inner)
include hs hinner hdistinct

/-- A block is found from its first marker to its last one, whatever is nested in it. -/
theorem LinesCompile.block {name : String}
    (hproper : ∀ line ∈ childrenLines ((.text name, .block (.text name) inner) :: rest),
      line.IsProper)
    (hrest : LinesCompile [] (number + (dataEntries number s).length) rest) :
    LinesCompile s number ((.text name, .block (.text name) inner) :: rest) := by
  intro front lineStart hfront path
  have hend := hfront.append_of_waits hs
  have hnext := nextConstruct?_block (quiet_of_waits hs) hend
    (neutral_childrenLines (passesOver_blockTurn name.toList) inner) hproper
  rw [String.ofList_toList] at hnext
  have hcompiles := compiles_of_block hnext (hinner.inside _)
    (by rw [slice_waits]; exact hrest.behind_lines hend hproper path)
  rw [slice_waits, ofEntries_eq_self hdistinct] at hcompiles
  exact hcompiles

theorem LinesCompile.loop {header : LoopHeader} (hheader : header.IsCanonical)
    (hproper : ∀ line ∈ childrenLines
      ((.int ↑(number + (dataEntries number s).length), .loop header inner) :: rest),
      line.IsProper)
    (hrest : LinesCompile [] (number + (dataEntries number s).length + 1) rest) :
    LinesCompile s number
      ((.int ↑(number + (dataEntries number s).length), .loop header inner) :: rest) := by
  intro front lineStart hfront path
  have hend := hfront.append_of_waits hs
  have hnext := nextConstruct?_loop (quiet_of_waits hs) hend hheader.parse?_toSource
    (neutral_childrenLines passesOver_loopTurn inner) hproper
  have hcompiles := compiles_of_loop hnext hinner.inside
    (by rw [slice_waits]; exact hrest.behind_lines hend hproper path)
  rw [slice_waits, ofEntries_eq_self hdistinct] at hcompiles
  exact hcompiles

/-- No marker is written before an empty branch, and an empty branch has no lines. -/
theorem LinesCompile.conditional {condition : Condition} (hcondition : condition.IsCanonical)
    (hothers : LinesCompile [] 0 others) (hdistinct' : DistinctKeys others)
    (hproper : ∀ line ∈ childrenLines
      ((.int ↑(number + (dataEntries number s).length), .conditional condition inner others)
        :: rest), line.IsProper)
    (hrest : LinesCompile [] (number + (dataEntries number s).length + 1) rest) :
    LinesCompile s number
      ((.int ↑(number + (dataEntries number s).length), .conditional condition inner others)
        :: rest) := by
  intro front lineStart hfront path
  have hend := hfront.append_of_waits hs
  have hpass (children : Children) : Neutral branchScan turnOfBranch (childrenLines children) :=
    neutral_childrenLines passesOver_branchTurn children
  have hnext := nextConstruct?_conditional (quiet_of_waits hs) hend hcondition.isHeader.2
    (hpass inner)
    (fun lines hlines => by
      split at hlines
      · cases hlines
      · exact Option.some.inj hlines ▸ hpass others) hproper
  -- no branch is written without lines
  have hlines : (if others.isEmpty then none else some (childrenLines others)).getD []
      = childrenLines others := by
    cases others with
    | nil => rfl
    | cons other more => rfl
  rw [hlines] at hnext
  have hcompiles := compiles_of_conditional hnext hinner.inside hothers.inside
    (by rw [slice_waits]; exact hrest.behind_lines hend hproper path)
  rw [slice_waits, ofEntries_eq_self hdistinct, ofEntries_eq_self hdistinct'] at hcompiles
  exact hcompiles

end

/-- The lines of canonical nodes compile to the nodes, the literal text that waits before them
    first. -/
theorem linesCompile_of_areCanonical {children : List (Key × Node)} (h : AreCanonical children)
    {s : List Char} (hs : s = [] ∨ IsLiteral s) {number : Nat}
    (hnumbered : IsNumbered (number + (dataEntries number s).length) children)
    (hapart : TextsApart (!s.isEmpty) children) : LinesCompile s number children := by
  match children with
  | [] => exact .nil hs number
  | (key, .data chunks) :: rest =>
    obtain ⟨⟨text, rfl, htext⟩, hrest⟩ := h
    -- literal text cannot wait before a node of literal text
    obtain rfl : s = [] := by simpa using hapart.1
    obtain ⟨rfl, hnumbered⟩ := hnumbered
    have hapart : TextsApart (!text.isEmpty) rest := by
      have hempty : text.isEmpty = false := by simpa using htext.ne_nil
      rw [hempty]
      exact hapart.2
    refine .data htext (linesCompile_of_areCanonical hrest (.inr htext) ?_ hapart)
    rwa [dataEntries_of_literal htext]
  | (key, .block label inner) :: rest =>
    have hproper := h.proper_lines hnumbered
    obtain ⟨⟨hlevel, hinner⟩, hrest⟩ := h
    obtain ⟨⟨name, rfl, rfl, -⟩, hnumbered⟩ := hnumbered
    have hinner := linesCompile_of_areCanonical hinner (.inl rfl) hlevel.numbered hlevel.apart
    have hrest := linesCompile_of_areCanonical hrest (.inl rfl) hnumbered hapart
    exact .block hs hinner hlevel.distinct hproper hrest
  | (key, .loop header inner) :: rest =>
    have hproper := h.proper_lines hnumbered
    obtain ⟨⟨hheader, hlevel, hinner⟩, hrest⟩ := h
    obtain ⟨rfl, hnumbered⟩ := hnumbered
    have hinner := linesCompile_of_areCanonical hinner (.inl rfl) hlevel.numbered hlevel.apart
    have hrest := linesCompile_of_areCanonical hrest (.inl rfl) hnumbered hapart
    exact .loop hs hinner hlevel.distinct hheader hproper hrest
  | (key, .conditional condition inner others) :: rest =>
    have hproper := h.proper_lines hnumbered
    obtain ⟨⟨hcondition, ⟨hlevel, hinner⟩, hlevel', hothers⟩, hrest⟩ := h
    obtain ⟨rfl, hnumbered⟩ := hnumbered
    have hinner := linesCompile_of_areCanonical hinner (.inl rfl) hlevel.numbered hlevel.apart
    have hothers := linesCompile_of_areCanonical hothers (.inl rfl) hlevel'.numbered hlevel'.apart
    have hrest := linesCompile_of_areCanonical hrest (.inl rfl) hnumbered hapart
    exact .conditional hs hinner hlevel.distinct hcondition hothers hlevel'.distinct hproper hrest
termination_by sizeOf children

/-! ## Compiling source text -/

/-- Compiling undoes writing: the source text of canonical nodes compiles to these nodes. -/
theorem children_compileUnit_childrenSource {children : Children} (h : IsCanonical children)
    (path : BlockPath) :
    (compileUnit (childrenSource children).toList path true).map CompiledUnit.children
      = .ok children := by
  obtain ⟨hlevel, hcanonical⟩ := h
  have hlines := linesCompile_of_areCanonical hcanonical (.inl rfl) hlevel.numbered hlevel.apart
  obtain ⟨index, hcompiles⟩ := hlines.inside path
  rw [← linesChars_childrenLines, compileUnit, hcompiles]
  exact congrArg Except.ok (ofEntries_eq_self hlevel.distinct)

/-- A loop with a key, over one line of text. -/
def nestedLoop : Node :=
  .loop ⟨some (.text "K"), .text "V", .parse ['S', '|', 'f']⟩
    [(.int 0, .data (dataChunks ['{', 'V', '}', '\n']))]

/-- Literal text, a block around a loop, and a conditional with a block in its second branch. -/
def nestedChildren : Children :=
  [(.int 0, .data (dataChunks ['a', '\n'])),
    (.text "B", .block (.text "B") [(.int 0, nestedLoop)]),
    (.int 1, .conditional ⟨.text "X", [.operand (.parse ['X'])]⟩ []
      [(.text "B", .block (.text "B") [])])]

theorem isCanonical_nestedLoop : nestedLoop.IsCanonical := by
  have hsource : (Reference.parse ['S', '|', 'f']).source = .text "S|f" := Reference.source_parse _
  refine ⟨⟨?_, ⟨"V", rfl, isName_of_all (by decide) (by decide)⟩, ?_, ?_, ?_⟩, ?_, ?_⟩
  · intro label hlabel
    cases hlabel
    exact ⟨"K", rfl, isName_of_all (by decide) (by decide)⟩
  · have hname : ∀ c ∈ ['S'], isEmbeddedName c = true := List.forall_mem_singleton.2 rfl
    exact ⟨_, rfl, ['S'], ['|', 'f'], rfl, by decide, hname, .inr ⟨['f'], rfl, by decide⟩⟩
  · simp [LoopHeader.toSource, LoopHeader.boundKey?, Reference.toSource, hsource]
    decide
  · simp [LoopHeader.toSource, LoopHeader.boundKey?, Reference.toSource, hsource]
    decide
  · exact ⟨⟨rfl, trivial⟩, List.pairwise_singleton _ _, ⟨rfl, trivial⟩⟩
  · exact ⟨⟨_, rfl, ⟨['{', 'V', '}'], rfl⟩, by decide⟩, trivial⟩

theorem isCanonical_nestedChildren : IsCanonical nestedChildren := by
  have hblock : ∃ name, Key.text "B" = .text name ∧ Json.text "B" = .text name
      ∧ IsName name.toList := ⟨"B", rfl, rfl, isName_of_all (by decide) (by decide)⟩
  have hempty : IsLevel [] := ⟨trivial, .nil, trivial⟩
  refine ⟨⟨⟨rfl, hblock, rfl, trivial⟩, ?_, ⟨rfl, trivial⟩⟩, ?_, ?_, ?_, trivial⟩
  · unfold DistinctKeys
    decide
  · exact ⟨['a', '\n'], rfl, ⟨['a'], rfl⟩, by decide⟩
  · exact ⟨⟨⟨rfl, trivial⟩, List.pairwise_singleton _ _, trivial⟩, isCanonical_nestedLoop, trivial⟩
  · refine ⟨⟨['X'], rfl, by decide, by decide, by decide, by decide⟩, ⟨hempty, trivial⟩, ?_, ?_⟩
    · exact ⟨⟨hblock, trivial⟩, List.pairwise_singleton _ _, trivial⟩
    · exact ⟨⟨hempty, trivial⟩, trivial⟩

theorem children_compileUnit_childrenSource_of_nested :
    IsCanonical nestedChildren
      ∧ (compileUnit (childrenSource nestedChildren).toList [.text "A"] true).map
          CompiledUnit.children
        = .ok nestedChildren :=
  ⟨isCanonical_nestedChildren,
    children_compileUnit_childrenSource isCanonical_nestedChildren [.text "A"]⟩

end BlockTemplate
