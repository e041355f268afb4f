import BlockTemplate.Proofs.Markup.Markers
import BlockTemplate.Proofs.Template.Compile

/-!
# Parts of a text

A text consists of parts: literal text, and constructs with their markers, whose bodies consist of
parts again. A unit is compiled part by part: each part gives one child, and each block among the
parts, at any depth, gives one path.

## Key results

- `exists_parts_of_compilesTo`, `exists_parts_of_compileTemplate`: a compiled unit, or template, is
  assembled from the parts of its text
- `IsAssembled.source_eq`, `IsAssembled.marked`: the text is its parts, each between its markers
-/

namespace BlockTemplate

/-- A part of a text: literal text, or a construct. -/
inductive UnitPart where
  | text (chars : List Char)
  | block (name : String) (markers : Markers) (body : List UnitPart)
  | loop (header : LoopHeader) (markers : Markers) (body : List UnitPart)
  | conditional (condition : Condition) (markers : Markers) (ifBody elseBody : List UnitPart)

mutual

/-- A part as it stands in the text. -/
def UnitPart.source : UnitPart → List Char
  | .text chars => chars
  | .block _ markers body | .loop _ markers body =>
    markers.opening.chars ++ partsSource body ++ markers.closing.chars
  | .conditional _ markers ifBody elseBody =>
    markers.opening.chars ++ partsSource ifBody ++ markers.separatorChars ++ partsSource elseBody
      ++ markers.closing.chars

/-- The text that consists of parts. -/
def partsSource : List UnitPart → List Char
  | [] => []
  | part :: rest => part.source ++ partsSource rest

end

mutual

/-- Whether the constructs of a part stand between their own markers. -/
def UnitPart.IsMarked : UnitPart → Prop
  | .text _ => True
  | .block name markers body => markers.AreOfBlock name ∧ AreMarked body
  | .loop header markers body => markers.AreOfLoop header ∧ AreMarked body
  | .conditional condition markers ifBody elseBody =>
    markers.AreOfConditional condition ∧ AreMarked ifBody ∧ AreMarked elseBody

def AreMarked : List UnitPart → Prop
  | [] => True
  | part :: rest => part.IsMarked ∧ AreMarked rest

end

/-! ## Children and paths -/

/-- The key of the child that a part gives, where `number` is the next number for a child. -/
def UnitPart.key (number : Nat) : UnitPart → Key
  | .block name _ _ => .text name
  | _ => .int number

/-- The next number for a child behind a part. -/
def UnitPart.nextNumber (number : Nat) : UnitPart → Nat
  | .block _ _ _ => number
  | _ => number + 1

mutual

/-- The node that a part is compiled to. -/
def UnitPart.node : UnitPart → Node
  | .text chars => .data (dataChunks chars)
  | .block name _ body => .block (.text name) (ofEntries (partEntries 0 body))
  | .loop header _ body => .loop header (ofEntries (partEntries 0 body))
  | .conditional condition _ ifBody elseBody =>
    .conditional condition (ofEntries (partEntries 0 ifBody)) (ofEntries (partEntries 0 elseBody))

/-- The children that parts give, one for each. -/
def partEntries (number : Nat) : List UnitPart → List (Key × Node)
  | [] => []
  | part :: rest => (part.key number, part.node) :: partEntries (part.nextNumber number) rest

end

mutual

/-- The blocks in a part at a path, with their paths, in the order of the text. -/
def UnitPart.blocks (path : BlockPath) : UnitPart → List (BlockPath × Node)
  | .text _ => []
  | .block name markers body =>
    (path, (UnitPart.block name markers body).node) :: partsBlocks path 0 body
  | .loop _ _ body => partsBlocks path 0 body
  | .conditional _ _ ifBody elseBody =>
    partsBlocks (path ++ [.int 0]) 0 ifBody ++ partsBlocks (path ++ [.int 1]) 0 elseBody

def partsBlocks (path : BlockPath) (number : Nat) : List UnitPart → List (BlockPath × Node)
  | [] => []
  | part :: rest =>
    part.blocks (path ++ [part.key number]) ++ partsBlocks path (part.nextNumber number) rest

end

/-- The paths of blocks by their full names. -/
def namedPaths (blocks : List (BlockPath × Node)) : List (String × BlockPath) :=
  blocks.map fun (path, _) => (fullName path, path)

theorem namedPaths_append (blocks more : List (BlockPath × Node)) :
    namedPaths (blocks ++ more) = namedPaths blocks ++ namedPaths more :=
  List.map_append

/-! ## Names -/

/-- The name of a part that is a block. -/
def UnitPart.blockName? : UnitPart → Option String
  | .block name _ _ => some name
  | _ => none

mutual

/-- Whether no two blocks next to each other have one name, in a part at any depth. -/
def UnitPart.HasDistinctNames : UnitPart → Prop
  | .text _ => True
  | .block _ _ body | .loop _ _ body => HaveDistinctNames body
  | .conditional _ _ ifBody elseBody => HaveDistinctNames ifBody ∧ HaveDistinctNames elseBody

/-- Whether no two blocks among parts have one name, nor do those in the parts at any depth. -/
def HaveDistinctNames : List UnitPart → Prop
  | [] => True
  | part :: rest =>
    part.HasDistinctNames ∧ (∀ name ∈ part.blockName?, name ∉ rest.filterMap UnitPart.blockName?)
      ∧ HaveDistinctNames rest

end

/-- Blocks are keyed by their names, and all else by numbers not used before. -/
theorem key_of_mem_partEntries {number : Nat} {parts : List UnitPart} {entry : Key × Node}
    (h : entry ∈ partEntries number parts) :
    (∃ name ∈ parts.filterMap UnitPart.blockName?, entry.1 = .text name)
      ∨ ∃ n : Nat, number ≤ n ∧ entry.1 = .int n := by
  induction parts generalizing number with
  | nil => exact nomatch h
  | cons part rest ih =>
    have hnumber : number ≤ part.nextNumber number := by
      cases part with
      | block name markers body => exact Nat.le_refl _
      | _ => exact Nat.le_succ _
    rcases List.mem_cons.1 h with rfl | h
    · cases part with
      | block name markers body => exact .inl ⟨name, List.mem_cons_self, rfl⟩
      | _ => exact .inr ⟨number, Nat.le_refl _, rfl⟩
    · obtain ⟨name, hname, hkey⟩ | ⟨n, hn, hkey⟩ := ih h
      · obtain ⟨other, hother, hname⟩ := List.mem_filterMap.1 hname
        exact .inl ⟨name, List.mem_filterMap.2 ⟨other, List.mem_cons_of_mem _ hother, hname⟩, hkey⟩
      · exact .inr ⟨n, Nat.le_trans hnumber hn, hkey⟩

/-- Only blocks of one name would have one key. -/
theorem distinctKeys_partEntries {parts : List UnitPart} (h : HaveDistinctNames parts)
    (number : Nat) : DistinctKeys (partEntries number parts) := by
  induction parts generalizing number with
  | nil => exact List.Pairwise.nil
  | cons part rest ih =>
    obtain ⟨-, hnew, hrest⟩ := h
    refine List.pairwise_cons.2 ⟨fun entry hentry => ?_, ih hrest _⟩
    obtain ⟨other, hother, hkey⟩ | ⟨n, hn, hkey⟩ := key_of_mem_partEntries hentry
    · rw [hkey]
      cases part with
      | block name markers body =>
        have hne : name ≠ other := fun heq => hnew name rfl (heq ▸ hother)
        simpa [UnitPart.key] using hne
      | _ => exact Key.int_beq_text _ _
    · rw [hkey]
      cases part with
      | block name markers body => exact Key.text_beq_int _ _
      | _ =>
        have hne : (number : Int) ≠ n := Int.ne_of_lt (Int.ofNat_lt.2 hn)
        simpa [UnitPart.key] using hne

/-! ## Cutting a text into its parts -/

/-- Literal text as a part; no text is no part. -/
def textParts (text : List Char) : List UnitPart := if text.isEmpty then [] else [.text text]

/-- The parts of a text from a position on. -/
def partsFrom (code : List Char) (lineStart : Bool) (pos : Nat) :
    Except CompileError (List UnitPart) :=
  match h : nextConstruct? code lineStart pos, nextMarkers? code lineStart pos with
  | .error e, _ => .error e
  | .ok none, _ | .ok (some _), none => .ok (textParts (code.drop pos))
  | .ok (some c), some markers =>
    have advances := nextConstruct?_advances h
    have : code.length - c.stop < code.length - pos :=
      Nat.sub_lt_sub_left advances.1 advances.2.1
    let before := textParts (slice code pos c.start)
    match hk : c.kind with
    | .block name body => do
      have : body.code.length < code.length :=
        advances.2.2 body (by simp [hk, ConstructKind.bodies])
      let inner ← partsFrom body.code body.lineStart 0
      let rest ← partsFrom code lineStart c.stop
      return before ++ .block name markers inner :: rest
    | .loop header body => do
      have : body.code.length < code.length :=
        advances.2.2 body (by simp [hk, ConstructKind.bodies])
      let inner ← partsFrom body.code body.lineStart 0
      let rest ← partsFrom code lineStart c.stop
      return before ++ .loop header markers inner :: rest
    | .conditional condition ifBody elseBody => do
      have : ifBody.code.length < code.length :=
        advances.2.2 ifBody (by simp [hk, ConstructKind.bodies])
      have : elseBody.code.length < code.length :=
        advances.2.2 elseBody (by simp [hk, ConstructKind.bodies])
      let ifPart ← partsFrom ifBody.code ifBody.lineStart 0
      let elsePart ← partsFrom elseBody.code elseBody.lineStart 0
      let rest ← partsFrom code lineStart c.stop
      return before ++ .conditional condition markers ifPart elsePart :: rest
termination_by (code.length, code.length - pos)

/-- The parts of the text of a unit. -/
def unitParts (code : List Char) (lineStart : Bool) : Except CompileError (List UnitPart) :=
  partsFrom code lineStart 0

/-! ## Parts after literal text -/

theorem partEntries_textParts_append (number : Nat) (text : List Char) (rest : List UnitPart) :
    partEntries number (textParts text ++ rest)
      = dataEntries number text
        ++ partEntries (number + (dataEntries number text).length) rest := by
  rw [textParts, dataEntries]
  split
  · rfl
  · rfl

theorem partsBlocks_textParts_append (path : BlockPath) (number : Nat) (text : List Char)
    (rest : List UnitPart) :
    partsBlocks path number (textParts text ++ rest)
      = partsBlocks path (number + (dataEntries number text).length) rest := by
  rw [textParts, dataEntries]
  split
  · rfl
  · rfl

theorem partsSource_textParts_append (text : List Char) (rest : List UnitPart) :
    partsSource (textParts text ++ rest) = text ++ partsSource rest := by
  rw [textParts]
  split
  · rename_i hempty
    rw [List.isEmpty_iff.1 hempty]
    rfl
  · rfl

theorem areMarked_textParts_append (text : List Char) {rest : List UnitPart} (h : AreMarked rest) :
    AreMarked (textParts text ++ rest) := by
  rw [textParts]
  split
  · exact h
  · exact ⟨trivial, h⟩

/-! ## Cutting off one construct -/

section
variable {code : List Char} {lineStart : Bool} {pos start stop : Nat} {markers : Markers}
  {inner others rest : List UnitPart}

theorem partsFrom_of_none (h : nextConstruct? code lineStart pos = .ok none) :
    partsFrom code lineStart pos = .ok (textParts (code.drop pos)) := by
  rw [partsFrom]
  split <;> simp_all

theorem partsFrom_of_block {name : String} {body : Body}
    (h : nextConstruct? code lineStart pos = .ok (some ⟨start, stop, .block name body⟩))
    (hmarkers : nextMarkers? code lineStart pos = some markers)
    (hinner : partsFrom body.code body.lineStart 0 = .ok inner)
    (hrest : partsFrom code lineStart stop = .ok rest) :
    partsFrom code lineStart pos
      = .ok (textParts (slice code pos start) ++ .block name markers inner :: rest) := by
  rw [partsFrom]
  split
  · simp_all
  · simp_all
  · simp_all
  · rename_i heq hms
    rw [h] at heq
    rw [hmarkers] at hms
    cases heq
    cases hms
    simp only [hinner, hrest]
    rfl

theorem partsFrom_of_loop {header : LoopHeader} {body : Body}
    (h : nextConstruct? code lineStart pos = .ok (some ⟨start, stop, .loop header body⟩))
    (hmarkers : nextMarkers? code lineStart pos = some markers)
    (hinner : partsFrom body.code body.lineStart 0 = .ok inner)
    (hrest : partsFrom code lineStart stop = .ok rest) :
    partsFrom code lineStart pos
      = .ok (textParts (slice code pos start) ++ .loop header markers inner :: rest) := by
  rw [partsFrom]
  split
  · simp_all
  · simp_all
  · simp_all
  · rename_i heq hms
    rw [h] at heq
    rw [hmarkers] at hms
    cases heq
    cases hms
    simp only [hinner, hrest]
    rfl

theorem partsFrom_of_conditional {condition : Condition} {ifBody elseBody : Body}
    (h : nextConstruct? code lineStart pos
      = .ok (some ⟨start, stop, .conditional condition ifBody elseBody⟩))
    (hmarkers : nextMarkers? code lineStart pos = some markers)
    (hinner : partsFrom ifBody.code ifBody.lineStart 0 = .ok inner)
    (hothers : partsFrom elseBody.code elseBody.lineStart 0 = .ok others)
    (hrest : partsFrom code lineStart stop = .ok rest) :
    partsFrom code lineStart pos
      = .ok (textParts (slice code pos start)
          ++ .conditional condition markers inner others :: rest) := by
  rw [partsFrom]
  split
  · simp_all
  · simp_all
  · simp_all
  · rename_i heq hms
    rw [h] at heq
    rw [hmarkers] at hms
    cases heq
    cases hms
    simp only [hinner, hothers, hrest]
    rfl

end

/-! ## Units from their parts -/

/-- Whether a unit is compiled from the parts that a text consists of from a position on. -/
structure IsAssembled (code : List Char) (pos : Nat) (path : BlockPath) (number : Nat)
    (parts : List UnitPart) (u : CompiledUnit) : Prop where
  source_eq : partsSource parts = code.drop pos
  marked : AreMarked parts
  entries_eq : u.entries = partEntries number parts
  index_eq : u.index = namedPaths (partsBlocks path number parts)

/-- One more construct, with the literal text in front of it. -/
theorem IsAssembled.cons {code : List Char} {pos start stop number : Nat} {path : BlockPath}
    {part : UnitPart} {parts : List UnitPart} {rest : CompiledUnit}
    (hpos : pos ≤ start) (hstart : start ≤ stop) (hsource : part.source = slice code start stop)
    (hmarked : part.IsMarked)
    (hrest : IsAssembled code stop path
      (part.nextNumber (number + (dataEntries number (slice code pos start)).length)) parts rest) :
    let next := number + (dataEntries number (slice code pos start)).length
    IsAssembled code pos path number (textParts (slice code pos start) ++ part :: parts)
      ⟨dataEntries number (slice code pos start) ++ (part.key next, part.node) :: rest.entries,
        namedPaths (part.blocks (path ++ [part.key next])) ++ rest.index⟩ where
  source_eq := by
    rw [partsSource_textParts_append, partsSource, hsource, hrest.source_eq,
      slice_append_drop hstart, slice_append_drop hpos]
  marked := areMarked_textParts_append _ ⟨hmarked, hrest.marked⟩
  entries_eq := by
    rw [partEntries_textParts_append, partEntries, hrest.entries_eq]
  index_eq := by
    rw [partsBlocks_textParts_append, partsBlocks, namedPaths_append, hrest.index_eq]

/-- Without another construct all is literal text. -/
theorem isAssembled_textParts (code : List Char) (pos : Nat) (path : BlockPath) (number : Nat) :
    IsAssembled code pos path number (textParts (code.drop pos))
      ⟨dataEntries number (code.drop pos), []⟩ := by
  have hsource := partsSource_textParts_append (code.drop pos) []
  have hnil : AreMarked [] := trivial
  have hmarked := areMarked_textParts_append (code.drop pos) hnil
  have hentries := partEntries_textParts_append number (code.drop pos) []
  have hblocks := partsBlocks_textParts_append path number (code.drop pos) []
  simp only [List.append_nil, partsSource, partEntries, partsBlocks] at *
  exact ⟨hsource, hmarked, hentries.symm, by rw [hblocks]; rfl⟩

/-- A compiled unit is assembled from the parts of its text. -/
theorem exists_parts_of_compilesTo {code : List Char} {path : BlockPath} {lineStart : Bool}
    {pos number : Nat} {u : CompiledUnit} (hcut : IsCut code pos)
    (hu : CompilesTo code path lineStart pos number u) :
    ∃ parts, partsFrom code lineStart pos = .ok parts
      ∧ IsAssembled code pos path number parts u := by
  -- by the rules of compilation: behind a construct the text is cut as well, and a body is a text
  -- from its start on
  induction hu with
  | text hnone => exact ⟨_, partsFrom_of_none hnone, isAssembled_textParts _ _ _ _⟩
  | @block code path lineStart pos number start stop name body inner rest hc _ _ ihinner ihrest =>
    obtain ⟨markers, hmarkers, hfilled⟩ := exists_markers_of_nextConstruct? hcut hc
    obtain ⟨innerParts, hinnerParts, hinner⟩ := ihinner (isCut_zero _)
    obtain ⟨restParts, hrestParts, hrest⟩ := ihrest hfilled.isCut
    refine ⟨_, partsFrom_of_block hc hmarkers hinnerParts hrestParts, ?_⟩
    have hsource : (UnitPart.block name markers innerParts).source = slice code start stop := by
      rw [hfilled.fill, UnitPart.source, hinner.source_eq]
      rfl
    rw [CompiledUnit.children, hinner.entries_eq, hinner.index_eq]
    exact IsAssembled.cons hfilled.pos_le hfilled.start_le hsource
      ⟨hfilled.areOf, hinner.marked⟩ hrest
  | @loop code path lineStart pos number start stop header body inner rest hc _ _ ihinner ihrest =>
    obtain ⟨markers, hmarkers, hfilled⟩ := exists_markers_of_nextConstruct? hcut hc
    obtain ⟨innerParts, hinnerParts, hinner⟩ := ihinner (isCut_zero _)
    obtain ⟨restParts, hrestParts, hrest⟩ := ihrest hfilled.isCut
    refine ⟨_, partsFrom_of_loop hc hmarkers hinnerParts hrestParts, ?_⟩
    have hsource : (UnitPart.loop header markers innerParts).source = slice code start stop := by
      rw [hfilled.fill, UnitPart.source, hinner.source_eq]
      rfl
    rw [CompiledUnit.children, hinner.entries_eq, hinner.index_eq]
    exact IsAssembled.cons hfilled.pos_le hfilled.start_le hsource
      ⟨hfilled.areOf, hinner.marked⟩ hrest
  | @conditional code path lineStart pos number start stop condition ifBody elseBody inner others
      rest hc _ _ _ ihinner ihothers ihrest =>
    obtain ⟨markers, hmarkers, hfilled⟩ := exists_markers_of_nextConstruct? hcut hc
    obtain ⟨innerParts, hinnerParts, hinner⟩ := ihinner (isCut_zero _)
    obtain ⟨otherParts, hotherParts, hothers⟩ := ihothers (isCut_zero _)
    obtain ⟨restParts, hrestParts, hrest⟩ := ihrest hfilled.isCut
    refine ⟨_, partsFrom_of_conditional hc hmarkers hinnerParts hotherParts hrestParts, ?_⟩
    have hsource : (UnitPart.conditional condition markers innerParts otherParts).source
        = slice code start stop := by
      rw [hfilled.fill, UnitPart.source, hinner.source_eq, hothers.source_eq]
      rfl
    rw [CompiledUnit.children, CompiledUnit.children, hinner.entries_eq, hothers.entries_eq,
      hinner.index_eq, hothers.index_eq, ← namedPaths_append]
    exact IsAssembled.cons hfilled.pos_le hfilled.start_le hsource
      ⟨hfilled.areOf, hinner.marked, hothers.marked⟩ hrest

/-- A compiled unit is assembled from the parts of its text. -/
theorem exists_parts_of_compileUnit {code : List Char} {path : BlockPath} {lineStart : Bool}
    {u : CompiledUnit} (hu : compileUnit code path lineStart = .ok u) :
    ∃ parts, unitParts code lineStart = .ok parts ∧ partsSource parts = code ∧ AreMarked parts
      ∧ u.entries = partEntries 0 parts ∧ u.index = namedPaths (partsBlocks path 0 parts) := by
  have hu := compileFrom_eq_ok_iff.1 hu
  obtain ⟨parts, hparts, h⟩ := exists_parts_of_compilesTo (isCut_zero code) hu
  exact ⟨parts, hparts, h.source_eq, h.marked, h.entries_eq, h.index_eq⟩

/-! ## Templates from their parts -/

/-- No markers. -/
def Markers.none : Markers := ⟨⟨[], [], []⟩, Option.none, ⟨[], [], []⟩⟩

/-- A root block as a part of its template. Its markers are dropped with the text around it. -/
def RootBlock.part (block : RootBlock) : Except CompileError UnitPart := do
  let body ← unitParts block.body true
  return .block block.name .none body

/-- The parts of a template, which are its root blocks. -/
def templateParts (code : List Char) : Except CompileError (List UnitPart) :=
  (rootBlocks code).mapM RootBlock.part

theorem exists_part_of_compile {block : RootBlock}
    {compiled : (Key × Node) × List (String × BlockPath)} (h : block.compile = .ok compiled) :
    ∃ body, block.part = .ok (.block block.name .none body)
      ∧ compiled = ((.text block.name, (UnitPart.block block.name .none body).node),
        namedPaths ((UnitPart.block block.name .none body).blocks [.text block.name])) := by
  obtain ⟨inner, hinner, h⟩ := exists_of_bind_eq_ok h
  obtain ⟨body, hbody, -, -, hentries, hindex⟩ := exists_parts_of_compileUnit hinner
  cases h
  refine ⟨body, ?_, ?_⟩
  · rw [RootBlock.part, hbody]
    rfl
  · -- a root block on its own has its name for a full name
    rw [CompiledUnit.children, hentries, hindex]
    rfl

theorem exists_parts_of_mapM {blocks : List RootBlock}
    {compiled : List ((Key × Node) × List (String × BlockPath))}
    (h : blocks.mapM RootBlock.compile = .ok compiled) :
    ∃ parts, blocks.mapM RootBlock.part = .ok parts
      ∧ compiled.map (·.1) = partEntries 0 parts
      ∧ compiled.flatMap (·.2) = namedPaths (partsBlocks [] 0 parts) := by
  induction blocks generalizing compiled with
  | nil =>
    cases h
    exact ⟨[], rfl, rfl, rfl⟩
  | cons block rest ih =>
    rw [List.mapM_cons] at h
    obtain ⟨first, hfirst, h⟩ := exists_of_bind_eq_ok h
    obtain ⟨others, hothers, h⟩ := exists_of_bind_eq_ok h
    obtain ⟨body, hpart, rfl⟩ := exists_part_of_compile hfirst
    obtain ⟨parts, hparts, hentries, hindex⟩ := ih hothers
    cases h
    refine ⟨.block block.name .none body :: parts, ?_, ?_, ?_⟩
    · rw [List.mapM_cons, hpart, ok_bind, hparts]
      rfl
    · rw [List.map_cons, hentries]
      rfl
    · rw [List.flatMap_cons, hindex, partsBlocks, namedPaths_append]
      rfl

/-- A compiled template is assembled from its parts. -/
theorem exists_parts_of_compileTemplate {code : List Char} {t : CompiledTemplate}
    (ht : compileTemplate code = .ok t) :
    ∃ parts, templateParts code = .ok parts ∧ t.blocks = ofEntries (partEntries 0 parts)
      ∧ t.index = (ofEntries (namedPaths (partsBlocks [] 0 parts))).map fun (name, path) =>
        (name, path.map Key.toJson) := by
  obtain ⟨compiled, hcompiled, ht⟩ := exists_of_bind_eq_ok ht
  obtain ⟨parts, hparts, hentries, hindex⟩ := exists_parts_of_mapM hcompiled
  cases ht
  exact ⟨parts, hparts, by rw [hentries], by rw [hindex]⟩

end BlockTemplate
