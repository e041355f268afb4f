import BlockTemplate.Proofs.Template.Recompile

/-!
# Templates that are compiled again as they are written

A compiled template is written as its root blocks, one behind the other. What has been written
compiles again, and its index has the same full names in the same order. The paths are the same if
between every two markers there is text in the written template if and only if there was some in the
source: a marker that shares its line with text leaves the line break that is written behind it.

## Key results

- `exists_compile_written`: a root block is compiled again as it is written
- `index_compileTemplate_toSource`: the index of a template that has been written
-/

namespace BlockTemplate

/-! ## Root blocks -/

/-- Whether a root block has a name, no blanks around its text, and no end in its text. -/
structure RootBlock.IsRoot (block : RootBlock) : Prop where
  name : IsName block.name.toList
  head : ∀ c ∈ block.body.head?, isMargin c = false
  body : closesComments block.body →
    IsBody Turn.next (turnOfBlock block.name.toList) block.body

theorem quiet_takeWhile_isMargin (s : List Char) : Quiet (s.takeWhile isMargin) :=
  quiet_of_isMargin fun c hc => List.all_eq_true.1 List.all_takeWhile c hc

/-- The text of a root block as it stands between its markers. -/
theorem isBody_of_isBody_trimmed {name s : List Char}
    (hcloses : closesComments (trimBoth isMargin s))
    (h : closesComments s → IsBody Turn.next (turnOfBlock name) s) :
    IsBody Turn.next (turnOfBlock name) (trimBoth isMargin s) := by
  obtain ⟨trail, htrail, hmargin⟩ := exists_eq_append_trimBoth (p := isMargin) s
  have hinner := closesComments_append hcloses (quiet_of_isMargin hmargin).closesComments
    (staysApart_of_isMargin hmargin)
  have hwhole := (quiet_takeWhile_isMargin s).closesComments_append hinner
  rw [← htrail] at hwhole
  have hlevel := (h hwhole).level
  rw [htrail, (quiet_takeWhile_isMargin s).itemsIn_append,
    itemsIn_of_append_margin hmargin _ hinner] at hlevel
  exact ⟨hcloses, hlevel⟩

theorem isName_of_marker? {s name : List Char} {size : Nat}
    (h : marker? s = some (.blockBegin name, size)) : IsName name := by
  simp only [marker?, Option.bind_eq_bind, Option.pure_def, Option.bind_eq_some_iff,
    Option.some.injEq, Prod.mk.injEq] at h
  obtain ⟨content, -, m, hcontent, rfl, -⟩ := h
  exact isName_of_nameAfter? (Marker.of_ofContent? hcontent)

/-- What is found as a root block is one. -/
theorem isRoot_of_rootBlock? {s after : List Char} {block : RootBlock}
    (h : rootBlock? s = some (block, after)) : block.IsRoot := by
  unfold rootBlock? at h
  split at h
  · rename_i name size hmarker
    obtain ⟨close, hend, hblock⟩ := Option.map_eq_some_iff.1 h
    cases hblock
    refine ⟨?_, head?_trimBoth_eq_false, fun hcloses => ?_⟩
    · rw [String.toList_ofList]
      exact isName_of_marker? hmarker
    · rw [String.toList_ofList]
      refine isBody_of_isBody_trimmed hcloses fun hwhole => ⟨hwhole, ?_⟩
      -- the end that was found is the first one at this depth, so the body is balanced
      obtain ⟨hclose, -⟩ := markerAt_of_blockEnd? (show
        blockEnd? name 0 ((s.drop size).drop 0) = some close from hend)
      have hstart := hclose.start_lt
      have hstop := hclose.stop_le
      rw [blockEnd?, blockTurn?_eq_markerAs,
        ← List.take_append_drop close.start (s.drop size)] at hend
      refine depthAfter_of_closing? hwhole hclose.staysApart hend ?_
      rw [List.length_take]
      omega
  · cases h

/-- The root blocks of a text are ones. -/
theorem isRoot_of_mem_rootBlocks {code : List Char} {block : RootBlock}
    (h : block ∈ rootBlocks code) : block.IsRoot := by
  obtain ⟨piece, hpiece, hblock⟩ := List.mem_filterMap.1 h
  cases piece with
  | literal chars => exact nomatch hblock
  | found other =>
    cases hblock
    exact forall_found_cutPieces (fun _ _ _ _ hfound => isRoot_of_rootBlock? hfound) hpiece

/-! ## Root blocks as they are written -/

/-- What is found in a piece of a text. -/
def Piece.found? {α : Type} : Piece α → Option α
  | .found item => some item
  | .literal _ => none

/-- The root blocks in a text, with literal characters before it. -/
def rootsFrom (before s : List Char) : List RootBlock :=
  (cutPiecesFrom rootBlock? before s).filterMap Piece.found?

theorem rootBlocks_eq_rootsFrom (code : List Char) : rootBlocks code = rootsFrom [] code := by
  rw [rootBlocks, rootsFrom, cutPieces]
  congr
  funext piece
  cases piece <;> rfl

theorem rootsFrom_nil (before : List Char) : rootsFrom before [] = [] := by
  rw [rootsFrom, cutPiecesFrom]
  cases before <;> rfl

theorem rootsFrom_cons_of_some {before s after : List Char} {c : Char} {block : RootBlock}
    (h : rootBlock? (c :: s) = some (block, after)) (hlt : after.length < (c :: s).length) :
    rootsFrom before (c :: s) = block :: rootsFrom [] after := by
  rw [rootsFrom, cutPiecesFrom, h]
  simp only [hlt, dif_pos]
  cases before <;> rfl

theorem rootsFrom_cons_of_none {before s : List Char} {c : Char} (h : rootBlock? (c :: s) = none) :
    rootsFrom before (c :: s) = rootsFrom (c :: before) s := by
  rw [rootsFrom, cutPiecesFrom, h]
  rfl

section
variable {name body : List Char}

/-- A root block is found as it is written. -/
theorem rootBlock?_enclosed (hname : IsName name)
    (hbody : IsBody Turn.next (turnOfBlock name) body) (tail : List Char) :
    rootBlock? (enclosed (.blockBegin name) (.blockEnd name) body ++ tail)
      = some (⟨String.ofList name, trimBoth isMargin ('\n' :: body)⟩, tail) := by
  have hproper : (Marker.blockEnd name).IsProper := hname
  have hclose := closing?_written hbody hproper (if_pos rfl) 0 tail
  have hbegin := marker?_chars (m := .blockBegin name) hname
  have htake : ('\n' :: (body ++ ((Marker.blockEnd name).chars ++ tail))).take (0 + 1 + body.length)
      = '\n' :: body := by
    rw [Nat.zero_add, Nat.add_comm, List.take_succ_cons, List.take_left]
  have hdrop : ('\n' :: (body ++ ((Marker.blockEnd name).chars ++ tail))).drop
      (0 + 1 + body.length + (Marker.blockEnd name).chars.length) = tail := by
    rw [Nat.zero_add, Nat.add_assoc, Nat.add_comm, List.drop_succ_cons, ← List.append_assoc,
      ← List.length_append, List.drop_left]
  simp only [enclosed_append, rootBlock?, hbegin, List.drop_left, blockEnd?, blockTurn?_eq_markerAs,
    hclose, Option.map_some, htake, hdrop]

theorem rootsFrom_enclosed (hname : IsName name)
    (hbody : IsBody Turn.next (turnOfBlock name) body) (before rest : List Char) :
    rootsFrom before (enclosed (.blockBegin name) (.blockEnd name) body ++ '\n' :: rest)
      = ⟨String.ofList name, trimBoth isMargin ('\n' :: body)⟩ :: rootsFrom ['\n'] rest := by
  have hfound := rootBlock?_enclosed hname hbody ('\n' :: rest)
  have hnone : rootBlock? ('\n' :: rest) = none := by
    have hstart : afterPattern? commentStart ('\n' :: rest) = none := quiet_newline.1 rest
    rw [rootBlock?, marker?_eq_none_of_no_comment hstart]
  have hlt : ('\n' :: rest).length
      < (enclosed (.blockBegin name) (.blockEnd name) body ++ '\n' :: rest).length := by
    rw [List.length_append]
    exact Nat.lt_add_of_pos_left (Nat.succ_pos _)
  rw [← rootsFrom_cons_of_none hnone]
  exact rootsFrom_cons_of_some hfound hlt

end

/-! ## Compiling root blocks -/

/-- What is written of a text without blanks in front of it has none, either. -/
theorem head?_partsWritten {parts : List UnitPart}
    (h : ∀ c ∈ (partsSource parts).head?, isMargin c = false) :
    ∀ c ∈ (partsWritten parts).head?, isMargin c = false := by
  have hmarker (s : List Char) : ∀ c ∈ ('<' :: s).head?, isMargin c = false := by
    rintro c ⟨⟩
    decide
  induction parts with
  | nil => exact fun c hc => nomatch hc
  | cons part rest ih =>
    cases part with
    | text chars =>
      cases chars with
      | nil => exact ih h
      | cons c chars => exact h
    | block name markers body => exact hmarker _
    | loop header markers body => exact hmarker _
    | conditional condition markers ifBody elseBody =>
      simp only [partsWritten, UnitPart.written]
      split
      · exact hmarker _
      · exact hmarker _

/-- A root block is compiled again as it is written. -/
theorem exists_compile_written {block : RootBlock} (hroot : block.IsRoot)
    {compiled : (Key × Node) × List (String × BlockPath)} (h : block.compile = .ok compiled)
    {part : UnitPart} (hpart : block.part = .ok part) (hapart : part.isApart) :
    ∃ core again, part.written = core ++ ['\n']
      ∧ (∀ before rest, rootsFrom before (core ++ '\n' :: rest)
        = again :: rootsFrom ['\n'] rest)
      ∧ ∃ result, again.compile = .ok result
        ∧ Reindexes (part.blocks [part.key 0]) (part.keepsGaps false) result.2 := by
  obtain ⟨inner, hinner, -⟩ := exists_of_bind_eq_ok h
  obtain ⟨body, hbody, hpart⟩ := exists_of_bind_eq_ok hpart
  cases hpart
  obtain ⟨parts, hparts, hsource, -⟩ := exists_parts_of_compileUnit hinner
  cases hparts.symm.trans hbody
  rw [UnitPart.isApart, Bool.and_eq_true] at hapart
  have hwritten := isWrittenAs_of_compilesTo (isCut_zero _) (compileFrom_eq_ok_iff.1 hinner) hbody
    hapart.2
  rw [List.drop_zero] at hwritten
  have hisBody := hwritten.isRewriting.isBody (isCoarse_turnOfBlock _)
    (hroot.body hwritten.isRewriting.closes)
  refine ⟨_, ⟨block.name, trimBoth isMargin ('\n' :: partsWritten body)⟩, rfl, ?_, ?_⟩
  · intro before rest
    rw [rootsFrom_enclosed hroot.name hisBody, String.ofList_toList]
  · -- the line break behind the beginning is a blank around the text
    have htrim : trimBoth isMargin ('\n' :: partsWritten body)
        = trimEnd isMargin (partsWritten body) := by
      have hhead := head?_partsWritten (hsource ▸ hroot.head)
      rw [trimBoth, List.dropWhile_cons_of_pos (by decide), dropWhile_eq_self_of_head hhead]
    obtain ⟨trail, htrail, hmargin⟩ :=
      exists_eq_append_trimEnd (p := isMargin) (partsWritten body)
    have hline : EndsAtLine ([] ++ keptBreak false) true := rfl
    obtain ⟨u, hu, hindex⟩ := hwritten.recompiles hline htrail.symm hmargin [.text block.name] 0
    have hcompile : compileUnit (trimBoth isMargin ('\n' :: partsWritten body))
        [.text block.name] true = .ok u := by
      rw [htrim]
      exact hu
    have hblock := hindex.cons [.text block.name]
      (UnitPart.block block.name .none body).node
    refine ⟨((.text block.name, .block (.text block.name) u.children),
      (block.name, [.text block.name]) :: u.index), ?_, hblock⟩
    rw [RootBlock.compile, hcompile]
    rfl

/-- The root blocks of a template are compiled again as they are written. -/
theorem exists_mapM_written {blocks : List RootBlock} (hroots : ∀ block ∈ blocks, block.IsRoot)
    {compiled : List ((Key × Node) × List (String × BlockPath))}
    (h : blocks.mapM RootBlock.compile = .ok compiled) {parts : List UnitPart}
    (hparts : blocks.mapM RootBlock.part = .ok parts) (hapart : partsAreApart parts)
    (before : List Char) :
    ∃ results, (rootsFrom before (partsWritten parts)).mapM RootBlock.compile = .ok results
      ∧ Reindexes (partsBlocks [] 0 parts) (parts.all (UnitPart.keepsGaps false))
        (results.flatMap (·.2)) := by
  induction blocks generalizing compiled parts before with
  | nil =>
    obtain rfl : [] = parts := Except.ok.inj hparts
    rw [partsWritten, rootsFrom_nil]
    exact ⟨[], rfl, Reindexes.nil.congr rfl fun _ => ⟨rfl, rfl⟩⟩
  | cons block blocks ih =>
    rw [List.mapM_cons] at h hparts
    obtain ⟨first, hfirst, h⟩ := exists_of_bind_eq_ok h
    obtain ⟨others, hothers, -⟩ := exists_of_bind_eq_ok h
    obtain ⟨part, hpart, hparts⟩ := exists_of_bind_eq_ok hparts
    obtain ⟨rest, hrest, hparts⟩ := exists_of_bind_eq_ok hparts
    cases hparts
    rw [partsAreApart, Bool.and_eq_true] at hapart
    obtain ⟨hroot, hroots⟩ := List.forall_mem_cons.1 hroots
    obtain ⟨core, again, hwritten, hfound, result, hresult, hindex⟩ :=
      exists_compile_written hroot hfirst hpart hapart.1
    obtain ⟨results, hresults, hindexes⟩ := ih hroots hothers hrest hapart.2 ['\n']
    -- a root block is no piece of text and takes no number
    have hkey : part.nextNumber 0 = 0 := by
      obtain ⟨body, -, heq⟩ := exists_of_bind_eq_ok hpart
      cases heq
      rfl
    refine ⟨result :: results, ?_, ?_⟩
    · rw [partsWritten, hwritten, List.append_assoc, List.singleton_append, hfound,
        List.mapM_cons, hresult, ok_bind, hresults]
      rfl
    · rw [partsBlocks, hkey, List.all_cons, List.flatMap_cons]
      exact hindex.append hindexes

/-! ## The index of a template that has been written -/

/-- The keys of a map do not depend on the values. -/
theorem map_fst_ofEntries_congr {κ β : Type} [BEq κ] {entries others : List (κ × β)}
    (h : entries.map (·.1) = others.map (·.1)) :
    (ofEntries entries).map (·.1) = (ofEntries others).map (·.1) := by
  have hunit (map : List (κ × β)) :
      mapValues (fun _ => ()) map = (map.map (·.1)).map (·, ()) := by
    rw [List.map_map]
    rfl
  have hkeys (map : List (κ × β)) :
      (mapValues (fun _ => ()) map).map (·.1) = map.map (·.1) := by
    rw [hunit, List.map_map]
    exact List.map_id' _
  rw [← hkeys, ← hkeys (ofEntries others), ← ofEntries_mapValues, ← ofEntries_mapValues, hunit,
    hunit, h]

/-- A template compiles again as it is written, with an index of the same full names, and with the
    same paths in it if the gaps between markers are kept. -/
theorem index_compileTemplate_toSource {code : List Char} {t : CompiledTemplate}
    {parts : List UnitPart} (ht : compileTemplate code = .ok t)
    (hparts : templateParts code = .ok parts) (hdistinct : HaveDistinctNames parts)
    (hapart : partsAreApart parts) :
    ∃ t', compileTemplate t.toSource.toList = .ok t'
      ∧ t'.index.map (·.1) = t.index.map (·.1)
      ∧ (parts.all (UnitPart.keepsGaps false) → t'.index = t.index) := by
  obtain ⟨others, hothers, hblocks, hindex⟩ := exists_parts_of_compileTemplate ht
  cases hothers.symm.trans hparts
  obtain ⟨compiled, hcompiled, -⟩ := exists_of_bind_eq_ok ht
  obtain ⟨results, hresults, hreindexes⟩ := exists_mapM_written
    (fun block hblock => isRoot_of_mem_rootBlocks hblock) hcompiled hparts hapart []
  have hsource : t.toSource.toList = partsWritten parts := by
    have hkeys := distinctKeys_partEntries hdistinct 0
    rw [CompiledTemplate.toSource, hblocks, ofEntries_eq_self hkeys,
      toList_childrenSource_partEntries 0 hdistinct]
  rw [hsource, hindex]
  refine ⟨_, by rw [compileTemplate, rootBlocks_eq_rootsFrom, hresults]; rfl, ?_, fun hkept => ?_⟩
  · rw [List.map_map, List.map_map]
    refine map_fst_ofEntries_congr ?_
    rw [hreindexes.names, map_fst_namedPaths]
  · dsimp only
    rw [hreindexes.paths hkept]

/-- A template with markers on lines of their own, and with markers among text. -/
def mixedSource : List Char :=
  "<!-- BEGIN: M -->\n  <!-- FOR \x7bV\x7d IN \x7bL\x7d -->\n<!-- BEGIN: A -->\na\n".toList
    ++ "  <!-- END: A -->\n<!-- ENDFOR -->\ny <!-- IF x -->\nb<!-- BEGIN: B -->z".toList
    ++ "<!-- END: B --><!-- ENDIF -->\n<!-- END: M -->".toList

set_option maxRecDepth 8000 in
/-- With text behind the markers among text the paths stay as they are. -/
theorem index_compileTemplate_toSource_of_mixed :
    ∃ t t', compileTemplate mixedSource = .ok t ∧ compileTemplate t.toSource.toList = .ok t'
      ∧ t.index = [("M", [.text "M"]), ("M.A", [.text "M", .int 0, .text "A"]),
        ("M.B", [.text "M", .int 2, .int 0, .text "B"])]
      ∧ t'.index = t.index := by
  have hindex : (compileTemplate mixedSource).map CompiledTemplate.index
      = .ok [("M", [.text "M"]), ("M.A", [.text "M", .int 0, .text "A"]),
        ("M.B", [.text "M", .int 2, .int 0, .text "B"])] := by cbv
  have hfacts : (templateParts mixedSource).map (fun parts => (fullNames (partsBlocks [] 0 parts),
      partsAreApart parts, parts.all (UnitPart.keepsGaps false)))
      = .ok (["M", "M.A", "M.B"], true, true) := by cbv
  obtain ⟨t, ht, hindex⟩ := exists_of_map_eq_ok hindex
  obtain ⟨parts, hparts, hfacts⟩ := exists_of_map_eq_ok hfacts
  simp only [Prod.mk.injEq] at hfacts
  obtain ⟨hnames, hapart, hkept⟩ := hfacts
  have hdistinct : HaveDistinctNames parts :=
    haveDistinctNames_of_nodup [] 0 (by rw [hnames]; decide)
  obtain ⟨t', ht', -, heq⟩ := index_compileTemplate_toSource ht hparts hdistinct hapart
  exact ⟨t, t', ht, ht', hindex, heq hkept⟩

/-- A template with markers that share their lines with text and with one another. -/
def inlineSource : List Char :=
  "<!-- BEGIN: M -->x<!-- BEGIN: A --><!-- IF B -->".toList
    ++ "<!-- BEGIN: N --><!-- END: N --><!-- ENDIF --><!-- END: A --><!-- END: M -->".toList

/-- The template as it is written. -/
def inlineWritten : List Char :=
  "<!-- BEGIN: M -->\nx<!-- BEGIN: A -->\n<!-- IF B -->\n<!-- BEGIN: N -->\n".toList
    ++ "<!-- END: N -->\n<!-- ENDIF -->\n<!-- END: A -->\n<!-- END: M -->\n".toList

set_option maxRecDepth 8000 in
/-- The line break behind a marker that shares its line with text becomes text, and shifts the
    paths behind it. -/
theorem index_compileTemplate_toSource_ne_of_inline :
    ∃ t t', compileTemplate inlineSource = .ok t ∧ compileTemplate t.toSource.toList = .ok t'
      ∧ t.index = [("M", [.text "M"]), ("M.A", [.text "M", .text "A"]),
        ("M.A.N", [.text "M", .text "A", .int 0, .int 0, .text "N"])]
      ∧ t'.index = [("M", [.text "M"]), ("M.A", [.text "M", .text "A"]),
        ("M.A.N", [.text "M", .text "A", .int 1, .int 0, .text "N"])]
      ∧ t'.index ≠ t.index := by
  have hfirst : (compileTemplate inlineSource).map
      (fun t => (t.index, linesChars (childrenLines t.blocks)))
      = .ok ([("M", [.text "M"]), ("M.A", [.text "M", .text "A"]),
        ("M.A.N", [.text "M", .text "A", .int 0, .int 0, .text "N"])], inlineWritten) := by cbv
  have hsecond : (compileTemplate inlineWritten).map CompiledTemplate.index
      = .ok [("M", [.text "M"]), ("M.A", [.text "M", .text "A"]),
        ("M.A.N", [.text "M", .text "A", .int 1, .int 0, .text "N"])] := by cbv
  obtain ⟨t, ht, hfirst⟩ := exists_of_map_eq_ok hfirst
  obtain ⟨hindex, hwritten⟩ := Prod.mk.inj hfirst
  obtain ⟨t', ht', hindex'⟩ := exists_of_map_eq_ok hsecond
  rw [← hwritten, linesChars_childrenLines] at ht'
  exact ⟨t, t', ht, ht', hindex, hindex', by simp [hindex, hindex']⟩

end BlockTemplate
