import Mathlib
import BlockTemplate.Proofs.Markup.Cleanup
import BlockTemplate.Proofs.Markup.RespacedConstructs
import BlockTemplate.Proofs.Template.Decisions
import BlockTemplate.Proofs.Template.Reconstruction

/-!
# Cleaned up templates

A template is compiled to the same blocks and decisions when it is cleaned up before, as long as
what its markers say does not depend on the gaps in them.

## Key results

- `compilesTo_respaced`: a respaced unit has the same blocks and decisions
- `compileTemplate_cleanupHtml`: so has a template that is cleaned up
-/

namespace BlockTemplate

/-! ## Units -/

/-- Whether two units have the same decisions, by names of blocks, and the same blocks. -/
structure CompiledUnit.Agrees (u u' : CompiledUnit) : Prop where
  decisions : namedDecisions u.entries = namedDecisions u'.entries
  names : u.index.map (·.1) = u'.index.map (·.1)

/-- The children of two units that agree have the same decisions. -/
theorem CompiledUnit.Agrees.children {u u' : CompiledUnit} (h : u.Agrees u')
    {code code' : List Char} {path path' : BlockPath} {lineStart lineStart' : Bool}
    (hu : CompilesTo code path lineStart 0 0 u) (hu' : CompilesTo code' path' lineStart' 0 0 u') :
    childrenDecisions u.children = childrenDecisions u'.children := by
  obtain ⟨parts, -, hparts⟩ := exists_parts_of_compilesTo (isCut_zero _) hu
  obtain ⟨parts', -, hparts'⟩ := exists_parts_of_compilesTo (isCut_zero _) hu'
  have hdecisions := h.decisions
  rw [hparts.entries_eq, hparts'.entries_eq] at hdecisions
  rw [CompiledUnit.children, CompiledUnit.children, hparts.entries_eq, hparts'.entries_eq]
  exact childrenDecisions_ofEntries_congr hdecisions

/-- One more child, with literal text in front of it. -/
theorem CompiledUnit.Agrees.cons {rest rest' : CompiledUnit} (h : rest.Agrees rest')
    {entry entry' : Key × Node} {index index' : List (String × BlockPath)}
    (hkey : entry.1.text? = entry'.1.text?) (hnode : entry.2.decisions = entry'.2.decisions)
    (hindex : index.map (·.1) = index'.map (·.1)) (number number' : Nat) (text text' : List Char) :
    CompiledUnit.Agrees ⟨dataEntries number text ++ entry :: rest.entries, index ++ rest.index⟩
      ⟨dataEntries number' text' ++ entry' :: rest'.entries, index' ++ rest'.index⟩ where
  decisions := by
    rw [namedDecisions_dataEntries_append, namedDecisions_dataEntries_append, namedDecisions_cons,
      namedDecisions_cons, namedItem, namedItem, hkey, hnode, h.decisions]
  names := by
    rw [List.map_append, List.map_append, hindex, h.names]

/-- The names on a path. -/
def pathNames (path : BlockPath) : List String := path.filterMap Key.text?

theorem pathNames_append_text (path : BlockPath) (name : String) :
    pathNames (path ++ [.text name]) = pathNames path ++ [name] :=
  List.filterMap_append

/-- Numbers play no part in the names on a path. -/
theorem pathNames_append_int (path : BlockPath) (number : Int) :
    pathNames (path ++ [.int number]) = pathNames path :=
  List.filterMap_append.trans (List.append_nil _)

/-- Numbers may differ where names agree. -/
theorem pathNames_append_int_congr {path path' : BlockPath} (h : pathNames path = pathNames path')
    (number number' : Int) :
    pathNames (path ++ [.int number]) = pathNames (path' ++ [.int number']) := by
  rw [pathNames_append_int, pathNames_append_int, h]

/-- A respaced unit is compiled to the same blocks and decisions. -/
theorem compilesTo_respaced {code code' : List Char}
    (hs : Respaced looseRule none none code code') (hsettled : isSettled code)
    {path path' : BlockPath} (hpath : pathNames path = pathNames path') {pos pos' : Nat}
    (hpos : Corresponds code code' pos pos') {lineStart : Bool} {number : Nat} {u : CompiledUnit}
    (hu : CompilesTo code path lineStart pos number u) (lineStart' : Bool) (number' : Nat) :
    ∃ u', CompilesTo code' path' lineStart' pos' number' u' ∧ u.Agrees u' := by
  -- by the rules of compilation: the respaced text has a construct of the same kind next, and
  -- there may be another number of chunks in front of it
  induction hu generalizing code' path' pos' lineStart' number' with
  | text hnone =>
    have hnone' := nextConstruct?_respaced_none hs hsettled hpos hnone lineStart'
    refine ⟨_, .text hnone', ?_, rfl⟩
    rw [namedDecisions_dataEntries, namedDecisions_dataEntries]
  | @block code path lineStart pos number start stop name body _ _ hc hinner _ ihinner ihrest =>
    obtain ⟨⟨start', stop', kind'⟩, hc', hstop, hkind⟩ :=
      exists_construct_respaced hs hsettled hpos hc lineStart'
    cases hkind with
    | @block _ _ body' hbody =>
      have hname : pathNames (path ++ [.text name]) = pathNames (path' ++ [.text name]) := by
        rw [pathNames_append_text, pathNames_append_text, hpath]
      obtain ⟨inner', hinner', hagrees⟩ := ihinner hbody.respaced hbody.settled hname
        (corresponds_zero _ _) body'.lineStart 0
      obtain ⟨rest', hrest', hmore⟩ := ihrest hs hsettled hpath hstop lineStart'
        (number' + (dataEntries number' (slice code' pos' start')).length)
      refine ⟨_, .block hc' hinner' hrest', hmore.cons ?_ ?_ ?_ number number' _ _⟩
      · rfl
      · rw [Node.decisions, Node.decisions, hagrees.children hinner hinner']
      · rw [pathNames] at hname
        rw [List.map_cons, List.map_cons, hagrees.names, fullName, fullName, hname]
        rfl
  | @loop code path lineStart pos number start stop header body _ _ hc hinner _ ihinner ihrest =>
    obtain ⟨⟨start', stop', kind'⟩, hc', hstop, hkind⟩ :=
      exists_construct_respaced hs hsettled hpos hc lineStart'
    let next' := number' + (dataEntries number' (slice code' pos' start')).length
    cases hkind with
    | @loop _ _ body' hbody =>
      obtain ⟨inner', hinner', hagrees⟩ := ihinner hbody.respaced hbody.settled
        (pathNames_append_int_congr hpath _ next') (corresponds_zero _ _) body'.lineStart 0
      obtain ⟨rest', hrest', hmore⟩ := ihrest hs hsettled hpath hstop lineStart' (next' + 1)
      refine ⟨_, .loop hc' hinner' hrest', hmore.cons ?_ ?_ hagrees.names number number' _ _⟩
      · rfl
      · rw [Node.decisions, Node.decisions, hagrees.children hinner hinner']
  | @conditional code path lineStart pos number start stop condition ifBody elseBody _ _ _ hc hinner
      hothers _ ihinner ihothers ihrest =>
    obtain ⟨⟨start', stop', kind'⟩, hc', hstop, hkind⟩ :=
      exists_construct_respaced hs hsettled hpos hc lineStart'
    let next' := number' + (dataEntries number' (slice code' pos' start')).length
    cases hkind with
    | @conditional _ condition' _ ifBody' _ elseBody' htokens hif helse =>
      have hnames := pathNames_append_int_congr hpath
        ↑(number + (dataEntries number (slice code pos start)).length) next'
      obtain ⟨inner', hinner', hagrees⟩ := ihinner hif.respaced hif.settled
        (pathNames_append_int_congr hnames 0 0) (corresponds_zero _ _) ifBody'.lineStart 0
      obtain ⟨others', hothers', hagrees'⟩ := ihothers helse.respaced helse.settled
        (pathNames_append_int_congr hnames 1 1) (corresponds_zero _ _) elseBody'.lineStart 0
      obtain ⟨rest', hrest', hmore⟩ := ihrest hs hsettled hpath hstop lineStart' (next' + 1)
      refine ⟨_, .conditional hc' hinner' hothers' hrest',
        hmore.cons ?_ ?_ ?_ number number' _ _⟩
      · rfl
      · rw [Node.decisions, Node.decisions, htokens, hagrees.children hinner hinner',
          hagrees'.children hothers hothers']
      · rw [List.map_append, List.map_append, hagrees.names, hagrees'.names]

/-! ## Root blocks -/

/-- Whether a root block is a respaced version of a settled one of its name. -/
structure RootBlock.Agrees (block block' : RootBlock) : Prop where
  name : block.name = block'.name
  body : Respaced looseRule none none block.body block'.body
  settled : isSettled block.body

/-- A trimmed text is a slice of the text, with gaps around it. -/
theorem exists_slice_eq_trimBoth (s : List Char) :
    ∃ start stop, trimBoth isMargin s = slice s start stop ∧ solidCount (s.take start) = 0
      ∧ solidCount (s.take stop) = solidCount s := by
  obtain ⟨trail, hs, htrail⟩ := exists_eq_append_trimBoth (p := isMargin) s
  have hlead : IsGap (s.takeWhile isMargin) := fun c hc =>
    isSpacing_of_isMargin (List.all_eq_true.1 List.all_takeWhile c hc)
  have htrail : IsGap trail := fun c hc => isSpacing_of_isMargin (htrail c hc)
  generalize s.takeWhile isMargin = lead, trimBoth isMargin s = inner at hs hlead ⊢
  subst hs
  refine ⟨lead.length, lead.length + inner.length, ?_, ?_, ?_⟩
  · rw [slice, List.drop_left, Nat.add_sub_cancel_left, List.take_left]
  · rw [List.take_left, hlead.solidCount_eq]
  · rw [List.take_length_add_append, List.take_left, solidCount_append, solidCount_append,
      solidCount_append, htrail.solidCount_eq, Nat.add_zero]

theorem trimBoth_respaced {s s' : List Char} (hs : Respaced looseRule none none s s') :
    Respaced looseRule none none (trimBoth isMargin s) (trimBoth isMargin s') := by
  obtain ⟨start, stop, heq, hstart, hstop⟩ := exists_slice_eq_trimBoth s
  obtain ⟨start', stop', heq', hstart', hstop'⟩ := exists_slice_eq_trimBoth s'
  rw [heq, heq']
  exact hs.slice (hstart.trans hstart'.symm) (by rw [hstop, hstop', hs.solidCount_eq])

/-- The root block at the start of a text, and what follows it. -/
theorem rootBlock?_respaced {d : Char} {s s' : List Char} (hd : isSpacing d = false)
    (hs : Respaced looseRule none (some d) s s') (hsettled : isSettled (d :: s)) :
    Option.Rel (fun found found' => found.1.Agrees found'.1
        ∧ Respaced looseRule none none found.2 found'.2 ∧ isSettled found.2)
      (rootBlock? (d :: s)) (rootBlock? (d :: s')) := by
  have hmarker := marker?_respaced hs fun content => noNull_of_isSettled hsettled
  rw [rootBlock?, rootBlock?]
  generalize marker? (d :: s) = o, marker? (d :: s') = o' at hmarker
  cases hmarker with
  | none => exact .none
  | @some found found' h =>
    obtain ⟨m, size⟩ := found
    obtain ⟨m', size'⟩ := found'
    obtain ⟨hm, hsize⟩ := h
    dsimp only at hm hsize
    cases hm with
    | blockBegin name =>
      have hcons : Respaced looseRule none none (d :: s) (d :: s') :=
        .here hd (.inl rfl) hs
      have hafter := hcons.drop hsize
      refine rel_map (blockEnd?_behind_respaced hd hs hsettled hsize name) fun close close' h => ?_
      have hbehind : isSettled ((d :: s).drop size) :=
        isSettled_of_isInfix hsettled (List.drop_suffix _ _).isInfix
      -- the text of the block and the text behind it are slices of a settled text
      refine ⟨⟨rfl, trimBoth_respaced (hafter.take h.start), ?_⟩, hafter.drop h.stop, ?_⟩
      · exact isSettled_of_isInfix hbehind
          ((trimBoth_within _).trans (List.take_prefix _ _).isInfix)
      · exact isSettled_of_isInfix hbehind (List.drop_suffix _ _).isInfix
    | _ => exact .none

theorem length_lt_of_rootBlock? {s after : List Char} {block : RootBlock}
    (h : rootBlock? s = some (block, after)) : after.length < s.length := by
  unfold rootBlock? at h
  split at h
  · rename_i name size hmarker
    obtain ⟨close, -, hblock⟩ := Option.map_eq_some_iff.1 h
    cases hblock
    have hsize := size_of_marker? hmarker
    rw [List.length_drop, List.length_drop]
    omega
  · cases h

/-- No root block starts in a gap. -/
theorem rootsFrom_gap_append {g : List Char} (hg : IsGap g) (before s : List Char) :
    rootsFrom before (g ++ s) = rootsFrom (g.reverse ++ before) s := by
  induction g generalizing before with
  | nil => rfl
  | cons c g ih =>
    obtain ⟨hc, hg⟩ := isGap_cons.1 hg
    have hnone : rootBlock? (c :: (g ++ s)) = none := by
      have hstart : afterPattern? commentStart (c :: (g ++ s)) = none :=
        afterPattern?_eq_none_of_isSpacing (by decide) hc _ _
      rw [rootBlock?, marker?_eq_none_of_no_comment hstart]
    rw [List.cons_append, rootsFrom_cons_of_none hnone, ih hg, List.reverse_cons,
      List.append_assoc, List.singleton_append]

/-- A respaced text has the same root blocks. -/
theorem rootsFrom_respaced {previous : Option Char} {s s' : List Char}
    (hs : Respaced looseRule none previous s s') (hsettled : isSettled s)
    (before before' : List Char) :
    List.Forall₂ RootBlock.Agrees (rootsFrom before s) (rootsFrom before' s') := by
  cases hs with
  | last hg hg' _ =>
    have hnone {g : List Char} (hg : IsGap g) (before : List Char) : rootsFrom before g = [] := by
      rw [← List.append_nil g, rootsFrom_gap_append hg, rootsFrom_nil]
    rw [hnone hg, hnone hg']
    exact .nil
  | @cons _ g g' d t t' hg hg' hd _ ht =>
    have hcons : isSettled (d :: t) :=
      isSettled_of_isInfix hsettled (List.suffix_append g _).isInfix
    have hrest : isSettled t := isSettled_of_isInfix hcons (List.suffix_cons d t).isInfix
    have hroot := rootBlock?_respaced hd ht hcons
    have hshorter : t.length < (g ++ d :: t).length := by
      rw [List.length_append, List.length_cons]
      omega
    rw [rootsFrom_gap_append hg, rootsFrom_gap_append hg']
    generalize hfound : rootBlock? (d :: t) = o, hfound' : rootBlock? (d :: t') = o' at hroot
    -- at a character that is in no gap both texts have a root block, or neither has one
    cases hroot with
    | none =>
      rw [rootsFrom_cons_of_none hfound, rootsFrom_cons_of_none hfound']
      exact rootsFrom_respaced ht hrest _ _
    | @some found found' h =>
      obtain ⟨block, after⟩ := found
      obtain ⟨block', after'⟩ := found'
      obtain ⟨hblock, hafter, hafterSettled⟩ := h
      have hlt := length_lt_of_rootBlock? hfound
      have hshorter : after.length < (g ++ d :: t).length := by
        rw [List.length_append]
        omega
      rw [rootsFrom_cons_of_some hfound hlt,
        rootsFrom_cons_of_some hfound' (length_lt_of_rootBlock? hfound')]
      exact .cons hblock (rootsFrom_respaced hafter hafterSettled [] [])
termination_by s.length

/-- A respaced root block is compiled to the same blocks and decisions. -/
theorem RootBlock.Agrees.compile {block block' : RootBlock} (h : block.Agrees block')
    {compiled : (Key × Node) × List (String × BlockPath)} (hc : block.compile = .ok compiled) :
    ∃ compiled', block'.compile = .ok compiled'
      ∧ namedItem compiled.1 = namedItem compiled'.1
      ∧ compiled.2.map (·.1) = compiled'.2.map (·.1) := by
  obtain ⟨u, hu, hc⟩ := exists_of_bind_eq_ok hc
  have hu := compileFrom_eq_ok_iff.1 hu
  have hpath : pathNames [.text block.name] = pathNames [.text block'.name] := by rw [h.name]
  obtain ⟨u', hu', hagrees⟩ := compilesTo_respaced h.body h.settled hpath (corresponds_zero _ _)
    hu true 0
  cases hc
  refine ⟨((.text block'.name, .block (.text block'.name) u'.children),
    (block'.name, [.text block'.name]) :: u'.index), ?_, ?_, ?_⟩
  · rw [RootBlock.compile, compileUnit, compileFrom_eq_ok_iff.2 hu']
    rfl
  · have hchildren := hagrees.children hu hu'
    rw [namedItem, namedItem, Node.decisions, Node.decisions, hchildren, h.name]
  · rw [List.map_cons, List.map_cons, hagrees.names, h.name]

theorem mapM_compile_respaced {blocks blocks' : List RootBlock}
    (h : List.Forall₂ RootBlock.Agrees blocks blocks')
    {compiled : List ((Key × Node) × List (String × BlockPath))}
    (hc : blocks.mapM RootBlock.compile = .ok compiled) :
    ∃ compiled', blocks'.mapM RootBlock.compile = .ok compiled'
      ∧ namedDecisions (compiled.map (·.1)) = namedDecisions (compiled'.map (·.1))
      ∧ (compiled.flatMap (·.2)).map (·.1) = (compiled'.flatMap (·.2)).map (·.1) := by
  induction h generalizing compiled with
  | nil =>
    cases hc
    exact ⟨[], rfl, rfl, rfl⟩
  | cons hblock _ ih =>
    rw [List.mapM_cons] at hc
    obtain ⟨first, hfirst, hc⟩ := exists_of_bind_eq_ok hc
    obtain ⟨rest, hrest, hc⟩ := exists_of_bind_eq_ok hc
    cases hc
    obtain ⟨first', hfirst', hitem, hnames⟩ := hblock.compile hfirst
    obtain ⟨rest', hrest', hdecisions, hothers⟩ := ih hrest
    refine ⟨first' :: rest', ?_, ?_, ?_⟩
    · rw [List.mapM_cons, hfirst', ok_bind, hrest']
      rfl
    · rw [List.map_cons, List.map_cons, namedDecisions_cons, namedDecisions_cons, hitem,
        hdecisions]
    · rw [List.flatMap_cons, List.flatMap_cons, List.map_append, List.map_append, hnames, hothers]

/-! ## Templates -/

/-- A respaced template is compiled to the same blocks and decisions. -/
theorem compileTemplate_respaced {code code' : List Char}
    (hs : Respaced looseRule none none code code') (hsettled : isSettled code)
    {t : CompiledTemplate} (ht : compileTemplate code = .ok t) :
    ∃ t', compileTemplate code' = .ok t' ∧ t'.index.map (·.1) = t.index.map (·.1)
      ∧ childrenDecisions t'.blocks = childrenDecisions t.blocks := by
  obtain ⟨compiled, hcompiled, ht⟩ := exists_of_bind_eq_ok ht
  have hroots := rootsFrom_respaced hs hsettled [] []
  rw [← rootBlocks_eq_rootsFrom, ← rootBlocks_eq_rootsFrom] at hroots
  obtain ⟨compiled', hcompiled', hdecisions, hnames⟩ := mapM_compile_respaced hroots hcompiled
  obtain ⟨parts, -, hentries, -⟩ := exists_parts_of_mapM hcompiled
  obtain ⟨parts', -, hentries', -⟩ := exists_parts_of_mapM hcompiled'
  cases ht
  refine ⟨_, by rw [compileTemplate, hcompiled']; rfl, ?_, ?_⟩
  · rw [List.map_map, List.map_map]
    exact (map_fst_ofEntries_congr hnames).symm
  · rw [hentries, hentries'] at hdecisions
    dsimp only
    rw [hentries, hentries']
    exact (childrenDecisions_ofEntries_congr hdecisions).symm

/-- A template that is cleaned up is compiled to the same blocks and decisions, unless what its
    markers say depends on the gaps in them. -/
theorem compileTemplate_cleanupHtml {code : List Char} (hsettled : isSettled code)
    {t : CompiledTemplate} (ht : compileTemplate code = .ok t) :
    ∃ t', compileTemplate (cleanupHtml code) = .ok t'
      ∧ t'.index.map (·.1) = t.index.map (·.1)
      ∧ childrenDecisions t'.blocks = childrenDecisions t.blocks :=
  compileTemplate_respaced (respaced_cleanupHtml code) hsettled ht

/-- A template with blanks of many kinds, outside and inside its markers. -/
def spacedSource : List Char :=
  "<!-- BEGIN: M -->\n\t<ul\n  class='a'>\n<!-- FOR \x7bV\x7d\n  IN  \x7bL\x7d -->\n".toList
    ++ "<!-- BEGIN: ROW -->\t<li> \x7bV\x7d </li><!-- END: ROW -->\n<!--  ENDFOR -->\n".toList
    ++ "<!-- IF 'a b'\t<  c\n-->  x<!--\nELSE --><!-- ENDIF -->\n</ul>\n<!-- END: M -->".toList

set_option maxRecDepth 8000 in
/-- The markers of a template are cleaned up with the text around them, and mean the same. -/
theorem compileTemplate_cleanupHtml_of_spaced :
    cleanupHtml spacedSource ≠ spacedSource
      ∧ ∃ t t', compileTemplate spacedSource = .ok t
        ∧ compileTemplate (cleanupHtml spacedSource) = .ok t'
        ∧ t.index.map (·.1) = ["M", "M.ROW"] ∧ t'.index.map (·.1) = ["M", "M.ROW"]
        ∧ (childrenDecisions t.blocks).map Decision.tokenCount = [0, 3]
        ∧ childrenDecisions t'.blocks = childrenDecisions t.blocks := by
  have hshorter : (cleanupHtml spacedSource).length < spacedSource.length := by cbv
  have hsettled : isSettled spacedSource := by cbv
  have hcompiled : (compileTemplate spacedSource).map (fun t =>
      (t.index.map (·.1), (childrenDecisions t.blocks).map Decision.tokenCount))
      = .ok (["M", "M.ROW"], [0, 3]) := by cbv
  obtain ⟨t, ht, hfacts⟩ := exists_of_map_eq_ok hcompiled
  simp only [Prod.mk.injEq] at hfacts
  obtain ⟨t', ht', hnames, hdecisions⟩ := compileTemplate_cleanupHtml hsettled ht
  refine ⟨fun heq => ?_, t, t', ht, ht', hfacts.1, by rw [hnames, hfacts.1], hfacts.2, hdecisions⟩
  rw [heq] at hshorter
  exact Nat.lt_irrefl _ hshorter

/-- A template with a line break behind an operator that is a bracket. -/
def brokenSource : List Char :=
  "<!-- BEGIN: M --><!-- IF 'b' >\n'a' -->z<!-- ENDIF --><!-- END: M -->".toList

set_option maxRecDepth 8000 in
/-- The line break is dropped, and the operator becomes a part of its operand. -/
theorem decisions_cleanupHtml_ne_of_broken :
    ∃ t t', compileTemplate brokenSource = .ok t
      ∧ compileTemplate (cleanupHtml brokenSource) = .ok t'
      ∧ childrenDecisions t'.blocks ≠ childrenDecisions t.blocks := by
  have hcompiled : (compileTemplate brokenSource).map (fun t =>
      (childrenDecisions t.blocks).map Decision.tokenCount) = .ok [3] := by cbv
  have hcleaned : (compileTemplate (cleanupHtml brokenSource)).map (fun t =>
      (childrenDecisions t.blocks).map Decision.tokenCount) = .ok [2] := by cbv
  obtain ⟨t, ht, hcount⟩ := exists_of_map_eq_ok hcompiled
  obtain ⟨t', ht', hcount'⟩ := exists_of_map_eq_ok hcleaned
  refine ⟨t, t', ht, ht', fun heq => ?_⟩
  rw [heq, hcount] at hcount'
  exact absurd hcount' (by decide)

end BlockTemplate
