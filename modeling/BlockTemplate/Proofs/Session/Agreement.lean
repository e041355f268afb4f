import BlockTemplate.Proofs.Reference.Printing
import BlockTemplate.Proofs.Reference.Substitution
import BlockTemplate.Proofs.Render.Agreement
import BlockTemplate.Proofs.Session.Operation
import BlockTemplate.Proofs.Template.Compile
import BlockTemplate.Callback.Default
import Mathlib

/-!
# What the texts of a session depend on

The names of a template's tags are the names that literal text starts its references with. The
arguments of callbacks look up more names, and those are not among them. A template without loops
and conditions depends on the variables of these two kinds of names and no others, whatever is
parsed and handed out in whatever order.

## Key results

- `text_mem_tags_of_compileTemplate`: the names of the tags of a compiled template
- `outcomes_performAll_of_agree`: variables that agree on all names that are looked up
- `outcomes_performAll_ne_of_argument`: agreeing on the names of the tags is not enough
-/

namespace BlockTemplate

/-! ## The names of tags -/

mutual

theorem Node.tags_eq_flatMap (node : Node) : node.tags = node.dataTexts.flatMap chunksTags := by
  match node with
  | .data chunks => exact (List.append_nil _).symm
  | .block _ children => exact childrenTags_eq_flatMap children
  | .loop _ children => exact childrenTags_eq_flatMap children
  | .conditional _ ifChildren elseChildren =>
    rw [Node.tags, Node.dataTexts, List.flatMap_append, childrenTags_eq_flatMap ifChildren,
      childrenTags_eq_flatMap elseChildren]

theorem childrenTags_eq_flatMap (children : List (Key × Node)) :
    childrenTags children = (childrenDataTexts children).flatMap chunksTags := by
  match children with
  | [] => rfl
  | (_, node) :: rest =>
    rw [childrenTags, childrenDataTexts, List.flatMap_append, node.tags_eq_flatMap,
      childrenTags_eq_flatMap rest]

end

theorem mem_sortedUnique {text : String} {texts : List String} :
    text ∈ sortedUnique texts ↔ text ∈ texts := by
  rw [sortedUnique, sortedBy, List.mem_mergeSort, List.mem_eraseDups]

theorem forall_mem_childrenDataTexts {P : List Chunk → Prop} {children : List (Key × Node)}
    (h : ∀ entry ∈ children, ∀ chunks ∈ entry.2.dataTexts, P chunks) :
    ∀ chunks ∈ childrenDataTexts children, P chunks := by
  induction children with
  | nil => exact List.forall_mem_nil _
  | cons entry rest ih =>
    obtain ⟨hentry, hrest⟩ := List.forall_mem_cons.1 h
    exact List.forall_mem_append.2 ⟨hentry, ih hrest⟩

/-- The data of a compiled template is literal text as it was cut. -/
theorem holdsOfParts_dataChunks :
    HoldsOfParts fun node => ∀ chunks ∈ node.dataTexts, ∃ text, chunks = dataChunks text where
  data text := fun _ hchunks => ⟨text, List.mem_singleton.1 hchunks⟩
  block _ _ _ hchildren := forall_mem_childrenDataTexts hchildren
  loop _ _ _ _ _ hchildren := forall_mem_childrenDataTexts hchildren
  conditional _ _ _ _ _ _ hif _ helse :=
    List.forall_mem_append.2
      ⟨forall_mem_childrenDataTexts hif, forall_mem_childrenDataTexts helse⟩

/-- The names of the tags of a compiled template are those that its literal text names. -/
theorem text_mem_tags_of_compileTemplate {code : List Char} {t : CompiledTemplate}
    (ht : compileTemplate code = .ok t) {name : Label} (hname : name ∈ childrenTags t.blocks) :
    ∃ text, name = .text text ∧ .text text ∈ t.tags := by
  -- a tag is cut out of literal text, so that its name is text
  have htext : ∃ text, name = .text text := by
    rw [childrenTags_eq_flatMap] at hname
    obtain ⟨chunks, hchunks, hname⟩ := List.mem_flatMap.1 hname
    obtain ⟨text, rfl⟩ := forall_mem_childrenDataTexts
      (fun entry hentry => ((forall_blocks_of_compileTemplate holdsOfParts_dataChunks ht).2 entry
        hentry).1) chunks hchunks
    obtain ⟨chunk, hchunk, hname⟩ := List.mem_filterMap.1 hname
    rw [dataChunks_eq_map_toChunk] at hchunk
    obtain ⟨piece, -, rfl⟩ := List.mem_map.1 hchunk
    cases piece with
    | literal chars => exact nomatch hname
    | found body =>
      rw [Piece.toChunk, Reference.parse] at hname
      exact ⟨_, (Option.some.inj hname).symm⟩
  obtain ⟨text, rfl⟩ := htext
  obtain ⟨compiled, -, ht⟩ := exists_of_bind_eq_ok ht
  cases ht
  refine ⟨text, rfl, List.mem_map_of_mem (mem_sortedUnique.2 ?_)⟩
  exact List.mem_filterMap.2 ⟨.text text, hname, rfl⟩

/-! ## Sessions with different variables -/

/-- The names that only the arguments of callbacks in literal text look up. -/
def childrenArgumentLookups (children : List (Key × Node)) : List Label :=
  (childrenDataTexts children).flatMap chunksArgumentLookups

/-- Whether two sessions are of one template, with the same callbacks, host globals and texts in
    the buffers. -/
structure Session.IsLike (s s' : Session) : Prop where
  compiled : s'.compiled = s.compiled
  callbacks : s'.callbacks = s.callbacks
  globals : s'.config.globals = s.config.globals
  buffers : s'.state.buffers = s.state.buffers

/-- Whether an operation parses a block or hands out its text. -/
def Operation.IsOfBlock : Operation → Prop
  | .parse _ | .text _ => True
  | _ => False

namespace Session

/-- Whether two sessions of a template are alike but for their variables, and these are the given
    ones. -/
structure IsLikeFor (t : CompiledTemplate) (vars vars' : List (Key × Value)) (s s' : Session) :
    Prop where
  isLike : s.IsLike s'
  compiled : s.compiled = t
  vars : s.state.vars = vars
  vars' : s'.state.vars = vars'

theorem IsLike.host_eq {s s' : Session} (h : s.IsLike s') : s'.host = s.host := by
  rw [host, host, h.callbacks, h.globals]

theorem IsLike.locate_eq {s s' : Session} (h : s.IsLike s') (block : String) :
    s'.locate block = s.locate block := by
  rw [locate, locate, h.compiled]

variable {t : CompiledTemplate} {vars vars' : List (Key × Value)} {s s' : Session}
  (h : s.IsLikeFor t vars vars' s')
include h

theorem IsLikeFor.recorded (block : String) :
    (s.recorded block).IsLikeFor t vars vars' (s'.recorded block) := by
  -- what is recorded goes to the log and nowhere else
  have hlog (s : Session) : ∃ log, s.recorded block = { s with log } := by
    rw [Session.recorded]
    split
    · exact ⟨_, rfl⟩
    · exact ⟨s.log, rfl⟩
  obtain ⟨log, hrecorded⟩ := hlog s
  obtain ⟨log', hrecorded'⟩ := hlog s'
  rw [hrecorded, hrecorded']
  exact ⟨⟨h.isLike.compiled, h.isLike.callbacks, h.isLike.globals, h.isLike.buffers⟩,
    h.compiled, h.vars, h.vars'⟩

theorem IsLikeFor.run {α : Type} {rendering : Rendering α} (hr : rendering.SameFor vars vars') :
    (s'.run rendering).1 = (s.run rendering).1
      ∧ (s.run rendering).2.IsLikeFor t vars vars' (s'.run rendering).2 := by
  obtain ⟨outcome, after, hrun, hrun'⟩ := hr s.state.buffers
  have hstate : s.state = ⟨vars, s.state.buffers⟩ := by rw [← h.vars]
  have hstate' : s'.state = ⟨vars', s.state.buffers⟩ := by rw [← h.vars', ← h.isLike.buffers]
  rw [Session.run, Session.run, hstate, hstate', hrun, hrun']
  exact ⟨rfl, ⟨h.isLike.compiled, h.isLike.callbacks, h.isLike.globals, rfl⟩, h.compiled, rfl, rfl⟩

section
variable (hblocks : ∀ entry ∈ t.blocks, entry.2.IsSettled vars vars')
include hblocks

theorem IsLikeFor.satisfies_of_locate {block : String} {found : BlockPath × Place}
    (hlocate : s.locate block = .ok (some found)) : found.2.Satisfies (Node.IsSettled vars vars') :=
  CompiledTemplate.satisfies_locate (passesDown_isSettled vars vars') (h.compiled ▸ hblocks)
    (eq_ok_of_mapError_eq_ok hlocate)

theorem IsLikeFor.parse (block : String) :
    (s'.parse block).1 = (s.parse block).1
      ∧ (s.parse block).2.IsLikeFor t vars vars' (s'.parse block).2 := by
  rw [Session.parse, Session.parse, h.isLike.locate_eq]
  cases hlocate : s.locate block with
  | error e => exact ⟨rfl, h⟩
  | ok found =>
    rcases found with _ | ⟨path, place⟩
    · exact ⟨rfl, h.recorded block⟩
    cases place with
    | level nodes => exact ⟨rfl, h⟩
    -- only a block can be parsed, and what holds of the template holds of its children
    | node node =>
      cases node with
      | block name children =>
        have hchildren := (passesDown_isSettled vars vars').block
          (h.satisfies_of_locate hblocks hlocate)
        have hrun := h.run (sameFor_parseBlock s.host path hchildren)
        simp only [h.isLike.host_eq]
        generalize s.run (parseBlock s.host path children) = result at hrun ⊢
        generalize s'.run (parseBlock s.host path children) = result' at hrun ⊢
        obtain ⟨outcome, after⟩ := result
        obtain ⟨outcome', after'⟩ := result'
        obtain ⟨rfl, hafter⟩ := hrun
        cases outcome' with
        | ok _ => exact ⟨rfl, hafter.recorded block⟩
        | error e => exact ⟨rfl, hafter⟩
      | data _ | loop _ _ | conditional _ _ _ => exact ⟨rfl, h⟩

theorem IsLikeFor.text (block : String) :
    (s'.text block).1 = (s.text block).1
      ∧ (s.text block).2.IsLikeFor t vars vars' (s'.text block).2 := by
  rw [Session.text, Session.text, h.isLike.locate_eq, h.isLike.host_eq]
  cases hlocate : s.locate block with
  | error e => exact ⟨rfl, h⟩
  | ok found =>
    rcases found with _ | ⟨path, place⟩
    · exact ⟨rfl, h⟩
    cases place with
    | level nodes => exact ⟨rfl, h⟩
    | node node =>
      exact h.run (node.sameFor_render s.host path (h.satisfies_of_locate hblocks hlocate))

/-- An operation of a block does the same in sessions that are alike, and leaves them alike. -/
theorem IsLikeFor.perform {operation : Operation} (hop : operation.IsOfBlock) :
    (s'.perform operation).1 = (s.perform operation).1
      ∧ (s.perform operation).2.IsLikeFor t vars vars' (s'.perform operation).2 := by
  match operation, hop with
  | .parse block, _ =>
    obtain ⟨houtcome, hafter⟩ := h.parse hblocks block
    exact ⟨congrArg (Except.map fun _ => none) houtcome, hafter⟩
  | .text block, _ =>
    obtain ⟨houtcome, hafter⟩ := h.text hblocks block
    exact ⟨congrArg (Except.map some) houtcome, hafter⟩

theorem IsLikeFor.performAll {operations : List Operation}
    (hops : ∀ operation ∈ operations, operation.IsOfBlock) :
    (s'.performAll operations).1 = (s.performAll operations).1 := by
  induction operations generalizing s s' with
  | nil => rfl
  | cons operation rest ih =>
    obtain ⟨hop, hrest⟩ := List.forall_mem_cons.1 hops
    obtain ⟨houtcome, hafter⟩ := h.perform hblocks hop
    exact congrArg₂ List.cons houtcome (ih hafter hrest)

end

end Session

/-- The sessions of a template without loops and conditions give the same texts, or fail the same
    way, if their variables agree on the names of the tags and on the names that the arguments of
    callbacks look up: whatever blocks are parsed and handed out, in any order. -/
theorem outcomes_performAll_of_agree {code : List Char} {s s' : Session}
    (ht : compileTemplate code = .ok s.compiled) (hplain : childrenDecisions s.compiled.blocks = [])
    (hlike : s.IsLike s')
    (htags : ∀ name ∈ s.compiled.tags,
      valueOf? name s.state.vars = valueOf? name s'.state.vars)
    (harguments : AgreeOn (childrenArgumentLookups s.compiled.blocks) s.state.vars s'.state.vars)
    {operations : List Operation} (hops : ∀ operation ∈ operations, operation.IsOfBlock) :
    (s'.performAll operations).1 = (s.performAll operations).1 := by
  have hblocks : ∀ entry ∈ s.compiled.blocks,
      entry.2.IsSettled s.state.vars s'.state.vars := by
    refine isSettled_of_children hplain fun chunks hchunks name hname key hkey => ?_
    rcases mem_chunksLookups.1 hname with hname | hname
    · have htag : name ∈ childrenTags s.compiled.blocks := by
        rw [childrenTags_eq_flatMap]
        exact List.mem_flatMap.2 ⟨chunks, hchunks, hname⟩
      obtain ⟨text, rfl, hmem⟩ := text_mem_tags_of_compileTemplate ht htag
      cases hkey
      exact htags _ hmem
    · exact harguments name (List.mem_flatMap.2 ⟨chunks, hchunks, hname⟩) key hkey
  have hlikeFor : s.IsLikeFor s.compiled s.state.vars s'.state.vars s' := ⟨hlike, rfl, rfl, rfl⟩
  exact hlikeFor.performAll hblocks hops

/-! ## A reference as an argument -/

/-- Literal text whose only tag has a reference among the arguments of its callback. -/
def joiningText : List Char := "\x7bA|implode({SEP}, '$this')\x7d".toList

/-- A template with the text in its only block. -/
def joiningSource : List Char :=
  "<!-- BEGIN: MAIN -->".toList ++ joiningText ++ "<!-- END: MAIN -->".toList

/-- The reference among the arguments. -/
def glueTag : Reference := .mk (.text "SEP") (.text "SEP") [] []

/-- The tag. -/
def joiningTag : Reference :=
  .mk (.text "A|implode({SEP}, '$this')") (.text "A") []
    [.mk (.text "implode") (some [.reference glueTag, .text [.literal "$this"]])
      (.text "implode({SEP}, '$this')")]

/-- What the template compiles to. -/
def joiningTemplate : CompiledTemplate where
  blocks := [(.text "MAIN", .block (.text "MAIN") [(.int 0, .data [.tag joiningTag])])]
  index := [("MAIN", [.text "MAIN"])]
  tags := [.text "A"]

theorem parse_glueTag : Reference.parse "SEP".toList = glueTag := by
  rw [Reference.parse]
  rfl

theorem parse_joiningTag : Reference.parse "A|implode({SEP}, '$this')".toList = joiningTag := by
  have hnames : dottedNames "A|implode({SEP}, '$this')".toList = ["A"] := by cbv
  have hsegments : callSegments "A|implode({SEP}, '$this')".toList
      = ["implode({SEP}, '$this')".toList] := by cbv
  have hcall : callForm? "implode({SEP}, '$this')".toList
      = some ("implode".toList, "{SEP}, '$this'".toList) := by cbv
  have hwords : argumentWords "{SEP}, '$this'".toList = ["{SEP}".toList, "'$this'".toList] := by cbv
  have hglue : Argument.parse "{SEP}".toList = .reference glueTag := by
    rw [← parse_glueTag]
    exact Argument.parse_braced "SEP".toList
  have hmark : Argument.parse "'$this'".toList = .text [.literal "$this"] := by
    refine (Argument.parse_quoted rfl "$this".toList).trans ?_
    rw [embeddedChunks_ofList, chunksOf_parse]
    exact congrArg (fun pieces => Argument.text (pieces.map Piece.toChunk))
      embeddedPieces_runningValueMark
  rw [Reference.parse_eq, hnames, hsegments, List.map_singleton, Call.parse_of_some hcall, hwords,
    List.map_cons, List.map_singleton, hglue, hmark]
  rfl

theorem compileTemplate_joiningSource : compileTemplate joiningSource = .ok joiningTemplate := by
  have hroots : rootBlocks joiningSource = [⟨"MAIN", joiningText⟩] := by cbv
  have hpieces : tagPieces joiningText = [.found "A|implode({SEP}, '$this')".toList] := by cbv
  have hchunks : dataChunks joiningText = [.tag joiningTag] := by
    rw [dataChunks_eq_map_toChunk, hpieces, ← parse_joiningTag]
    rfl
  have hbody : compileFrom joiningText [.text "MAIN"] true 0 0
      = .ok ⟨[(.int 0, .data (dataChunks joiningText))], []⟩ :=
    compileFrom_of_none rfl
  have htags : sortedUnique ["A"] = ["A"] := by cbv
  rw [compileTemplate, hroots, List.mapM_cons, RootBlock.compile, compileUnit, hbody, hchunks]
  show Except.ok { joiningTemplate with tags := (sortedUnique ["A"]).map Key.text } = _
  rw [htags]
  rfl

/-- A session of the template with an array, what to join it with, and another variable. -/
def joiningSession (glue other : String) : Session :=
  { Session.start "page" {} .default "0" joiningTemplate with
    state :=
      { vars := [(.text "A", .sequence (.host 0) [.int 1, .int 2]), (.text "SEP", .text glue),
          (.text "B", .text other)]
        buffers := [] } }

theorem outcomes_joiningSession :
    ((joiningSession "-" "x").performAll [.parse "MAIN", .text "MAIN"]).1
      = [.ok none, .ok (some "1-2")] := by
  cbv

/-- What the session shows does not depend on the other variable. -/
theorem outcomes_performAll_of_agree_of_other :
    childrenArgumentLookups joiningTemplate.blocks = [.text "SEP"]
      ∧ ((joiningSession "-" "x").performAll [.parse "MAIN", .text "MAIN"]).1
        = [.ok none, .ok (some "1-2")]
      ∧ ((joiningSession "-" "y").performAll [.parse "MAIN", .text "MAIN"]).1
        = [.ok none, .ok (some "1-2")] := by
  have hlookups : childrenArgumentLookups joiningTemplate.blocks = [.text "SEP"] := rfl
  have hlike : (joiningSession "-" "x").IsLike (joiningSession "-" "y") := ⟨rfl, rfl, rfl, rfl⟩
  have htags : ∀ name ∈ joiningTemplate.tags, valueOf? name (joiningSession "-" "x").state.vars
      = valueOf? name (joiningSession "-" "y").state.vars := List.forall_mem_singleton.2 rfl
  have harguments : AgreeOn (childrenArgumentLookups joiningTemplate.blocks)
      (joiningSession "-" "x").state.vars (joiningSession "-" "y").state.vars := by
    rw [hlookups]
    refine List.forall_mem_singleton.2 fun key hkey => ?_
    cases hkey
    rfl
  refine ⟨hlookups, outcomes_joiningSession, ?_⟩
  rw [← outcomes_joiningSession]
  exact outcomes_performAll_of_agree compileTemplate_joiningSource rfl hlike htags harguments
    (by simp [Operation.IsOfBlock])

/-- It depends on what the array is joined with, which is none of the names of the tags. -/
theorem outcomes_performAll_ne_of_argument :
    compileTemplate joiningSource = .ok joiningTemplate
      ∧ childrenDecisions joiningTemplate.blocks = []
      ∧ (joiningSession "-" "x").IsLike (joiningSession "+" "x")
      ∧ (∀ name ∈ joiningTemplate.tags, valueOf? name (joiningSession "-" "x").state.vars
        = valueOf? name (joiningSession "+" "x").state.vars)
      ∧ ((joiningSession "-" "x").performAll [.parse "MAIN", .text "MAIN"]).1
        = [.ok none, .ok (some "1-2")]
      ∧ ((joiningSession "+" "x").performAll [.parse "MAIN", .text "MAIN"]).1
        = [.ok none, .ok (some "1+2")] :=
  ⟨compileTemplate_joiningSource, rfl, ⟨rfl, rfl, rfl, rfl⟩, List.forall_mem_singleton.2 rfl,
    outcomes_joiningSession, by cbv⟩

end BlockTemplate
