import BlockTemplate.Proofs.Markup.Written
import BlockTemplate.Proofs.Template.Index
import BlockTemplate.Proofs.Template.ReadMarkers

/-!
# Parts as they are written

A compiled template is written with every marker followed by a line break. The text so written has
the markers of the source, apart from separators of empty branches, and the literal text of the
source between them. Whether a line break becomes text of its own depends on which markers share
their lines.

## Key results

- `toList_childrenSource_partEntries`: compiled parts are written as their parts are
- `fullNames_partsBlocks`: the full names of blocks do not depend on numbers
- `IsRewriting.enclose`, `IsRewriting.branches`: written markers stand for those of the source
-/

namespace BlockTemplate

/-! ## The written text -/

mutual

/-- A part as it is written. -/
def UnitPart.written : UnitPart → List Char
  | .text chars => chars
  | .block name _ body =>
    enclosed (.blockBegin name.toList) (.blockEnd name.toList) (partsWritten body) ++ ['\n']
  | .loop header _ body =>
    enclosed (.loopBegin header.toSource.toList) .loopEnd (partsWritten body) ++ ['\n']
  | .conditional condition _ ifBody elseBody =>
    let opening := Marker.ifBegin condition.source.shown.toList
    -- an empty branch is left out with the separator in front of it
    if elseBody.isEmpty then enclosed opening .ifEnd (partsWritten ifBody) ++ ['\n']
    else opening.chars
      ++ '\n' :: (partsWritten ifBody ++ enclosed .ifElse .ifEnd (partsWritten elseBody)) ++ ['\n']

/-- Parts as they are written. -/
def partsWritten : List UnitPart → List Char
  | [] => []
  | part :: rest => part.written ++ partsWritten rest

end

theorem partsWritten_textParts_append (text : List Char) (rest : List UnitPart) :
    partsWritten (textParts text ++ rest) = text ++ partsWritten rest := by
  rw [textParts]
  split
  · rename_i hempty
    rw [List.isEmpty_iff.1 hempty]
    rfl
  · rfl

theorem isEmpty_partEntries (number : Nat) (parts : List UnitPart) :
    (partEntries number parts).isEmpty = parts.isEmpty := by
  cases parts <;> rfl

theorem childrenLines_cons (entry : Key × Node) (rest : Children) :
    childrenLines (entry :: rest) = childrenLines [entry] ++ childrenLines rest := by
  obtain ⟨key, node⟩ := entry
  cases key <;> simp [childrenLines]

mutual

theorem UnitPart.linesChars_node (number : Nat) : ∀ {part : UnitPart}, part.HasDistinctNames →
    linesChars (childrenLines [(part.key number, part.node)]) = part.written
  | .text chars, _ => by
    simp [UnitPart.key, UnitPart.node, UnitPart.written, childrenLines, Node.lines, Line.chars,
      toList_chunksSource_dataChunks]
  | .block name _ body, h => by
    have hbody := linesChars_childrenLines_partEntries 0 h
    simp [UnitPart.key, UnitPart.node, UnitPart.written, enclosed, childrenLines, Node.lines,
      blockLines, Line.chars, ofEntries_eq_self (distinctKeys_partEntries h 0), hbody]
  | .loop header _ body, h => by
    have hbody := linesChars_childrenLines_partEntries 0 h
    simp [UnitPart.key, UnitPart.node, UnitPart.written, enclosed, childrenLines, Node.lines,
      loopLines, Line.chars, ofEntries_eq_self (distinctKeys_partEntries h 0), hbody]
  | .conditional condition _ ifBody elseBody, h => by
    have hif := linesChars_childrenLines_partEntries 0 h.1
    have helse := linesChars_childrenLines_partEntries 0 h.2
    simp only [UnitPart.key, UnitPart.node, UnitPart.written, childrenLines, Node.lines,
      ofEntries_eq_self (distinctKeys_partEntries h.1 0),
      ofEntries_eq_self (distinctKeys_partEntries h.2 0), isEmpty_partEntries]
    -- no separator is written before an empty branch
    cases hempty : elseBody.isEmpty with
    | true => simp [conditionalLines, Line.chars, enclosed, hif]
    | false => simp [conditionalLines, Line.chars, enclosed, hif, helse]

/-- The lines of compiled parts are the text in which the parts are written. -/
theorem linesChars_childrenLines_partEntries (number : Nat) : ∀ {parts : List UnitPart},
    HaveDistinctNames parts →
    linesChars (childrenLines (partEntries number parts)) = partsWritten parts
  | [], _ => rfl
  | part :: rest, h => by
    have hpart := UnitPart.linesChars_node number h.1
    have hrest := linesChars_childrenLines_partEntries (part.nextNumber number) h.2.2
    rw [partEntries, childrenLines_cons, linesChars_append, hpart, hrest, partsWritten]

end

/-- Compiled parts are written as their parts are. -/
theorem toList_childrenSource_partEntries (number : Nat) {parts : List UnitPart}
    (h : HaveDistinctNames parts) :
    (childrenSource (partEntries number parts)).toList = partsWritten parts := by
  rw [← linesChars_childrenLines, linesChars_childrenLines_partEntries number h]

/-! ## Names and gaps -/

mutual

theorem UnitPart.fullNames_blocks {path path' : BlockPath}
    (h : path.filterMap Key.text? = path'.filterMap Key.text?) :
    ∀ part : UnitPart, fullNames (part.blocks path) = fullNames (part.blocks path')
  | .text _ => rfl
  | .block name _ body => by
    have hbody := fullNames_partsBlocks h 0 0 body
    have hname : fullName path = fullName path' := by rw [fullName, h, ← fullName]
    rw [UnitPart.blocks, UnitPart.blocks, fullNames, fullNames, List.map_cons, List.map_cons, hname]
    exact congrArg _ hbody
  | .loop _ _ body => fullNames_partsBlocks h 0 0 body
  | .conditional _ _ ifBody elseBody => by
    have hbranch (number : Int) : (path ++ [Key.int number]).filterMap Key.text?
        = (path' ++ [Key.int number]).filterMap Key.text? := by
      rw [List.filterMap_append, List.filterMap_append, h]
    have hif := fullNames_partsBlocks (hbranch 0) 0 0 ifBody
    have helse := fullNames_partsBlocks (hbranch 1) 0 0 elseBody
    rw [UnitPart.blocks, UnitPart.blocks, fullNames_append, fullNames_append, hif, helse]

/-- The full names of blocks do not depend on the numbers on their paths. -/
theorem fullNames_partsBlocks {path path' : BlockPath}
    (h : path.filterMap Key.text? = path'.filterMap Key.text?) (number number' : Nat) :
    ∀ parts : List UnitPart,
      fullNames (partsBlocks path number parts) = fullNames (partsBlocks path' number' parts)
  | [] => rfl
  | part :: rest => by
    have hkey : (path ++ [part.key number]).filterMap Key.text?
        = (path' ++ [part.key number']).filterMap Key.text? := by
      rw [List.filterMap_append, List.filterMap_append, h]
      cases part <;> rfl
    have hpart := part.fullNames_blocks hkey
    have hrest := fullNames_partsBlocks h (part.nextNumber number) (part.nextNumber number') rest
    rw [partsBlocks, partsBlocks, fullNames_append, fullNames_append, hpart, hrest]

end

theorem map_fst_namedPaths (blocks : List (BlockPath × Node)) :
    (namedPaths blocks).map (·.1) = fullNames blocks := by
  rw [namedPaths, List.map_map]
  rfl

/-- Whether there is text behind the end marker of a part, in the last line of what is in the
    part. -/
def UnitPart.endShares : UnitPart → Bool
  | .text _ => false
  | .block _ _ body | .loop _ _ body => sharesLine (partsWritten body)
  | .conditional _ _ ifBody elseBody =>
    sharesLine (partsWritten (if elseBody.isEmpty then ifBody else elseBody))

/-- Whether text between two markers, which may be none, is written so that there is some if and
    only if there was. `shares` tells whether the marker before it shares its line. -/
def keepsGap (shares : Bool) (text : List Char) : Bool :=
  (keptBreak shares ++ beforeMarker text).isEmpty == text.isEmpty

mutual

/-- Whether in a part the gaps in front of constructs are kept. -/
def UnitPart.keepsGaps (shares : Bool) : UnitPart → Bool
  | .text _ => true
  | .block _ _ body | .loop _ _ body => partsKeepGaps shares [] body
  | .conditional _ _ ifBody elseBody =>
    partsKeepGaps shares [] ifBody && partsKeepGaps (sharesLine (partsWritten ifBody)) [] elseBody

/-- Whether among parts the gaps in front of constructs are kept, with the given text since the last
    marker. -/
def partsKeepGaps (shares : Bool) (text : List Char) : List UnitPart → Bool
  | [] => true
  | .text chars :: rest => partsKeepGaps shares (text ++ chars) rest
  | part :: rest =>
    keepsGap shares text && part.keepsGaps (sharesLine text) && partsKeepGaps part.endShares [] rest

end

/-- Whether a part is a construct. -/
def UnitPart.isConstruct : UnitPart → Bool
  | .text _ => false
  | _ => true

theorem partsKeepGaps_textParts_append {part : UnitPart} (hpart : part.isConstruct) (shares : Bool)
    (text : List Char) (rest : List UnitPart) :
    partsKeepGaps shares [] (textParts text ++ part :: rest)
      = (keepsGap shares text && part.keepsGaps (sharesLine text)
        && partsKeepGaps part.endShares [] rest) := by
  have hconstruct (text : List Char) : partsKeepGaps shares text (part :: rest)
      = (keepsGap shares text && part.keepsGaps (sharesLine text)
        && partsKeepGaps part.endShares [] rest) := by
    cases part with
    | text chars => exact nomatch hpart
    | _ => rfl
  rw [textParts]
  split
  · rename_i hempty
    rw [List.isEmpty_iff.1 hempty]
    exact hconstruct []
  · exact hconstruct text

/-! ## Comments that stay apart from markers -/

mutual

/-- Whether no comment overlaps a marker, in a part at any depth. -/
def UnitPart.isApart : UnitPart → Bool
  | .text chars => closesComments chars
  | .block _ markers body | .loop _ markers body => markers.areApart && partsAreApart body
  | .conditional _ markers ifBody elseBody =>
    markers.areApart && partsAreApart ifBody && partsAreApart elseBody

/-- Whether no comment overlaps a marker, in parts at any depth. -/
def partsAreApart : List UnitPart → Bool
  | [] => true
  | part :: rest => part.isApart && partsAreApart rest

end

theorem partsAreApart_textParts_append {text : List Char} {rest : List UnitPart} :
    partsAreApart (textParts text ++ rest) ↔ closesComments text ∧ partsAreApart rest := by
  rw [textParts]
  split
  · rename_i hempty
    rw [List.isEmpty_iff.1 hempty]
    exact (and_iff_right rfl).symm
  · exact Bool.and_eq_true_iff

theorem partsAreApart_textParts_append_cons {text : List Char} {part : UnitPart}
    {rest : List UnitPart} : partsAreApart (textParts text ++ part :: rest)
      ↔ closesComments text ∧ part.isApart ∧ partsAreApart rest := by
  rw [partsAreApart_textParts_append, partsAreApart, Bool.and_eq_true]

/-! ## Rewriting -/

/-- Whether a function makes nothing of separators, and one thing of all beginnings of loops. -/
structure IsCoarse {α : Type} (f : Marker → Option α) : Prop where
  loop : ∀ header header', f (.loopBegin header) = f (.loopBegin header')
  separator : f .ifElse = none

/-- Whether two markers are one, or two beginnings of loops. -/
def Marker.IsLike (m m' : Marker) : Prop :=
  m = m' ∨ (∃ header, m = .loopBegin header) ∧ ∃ header, m' = .loopBegin header

theorem Marker.IsLike.apply_eq {α : Type} {f : Marker → Option α} {m m' : Marker}
    (h : m.IsLike m') (hf : ∀ header header', f (.loopBegin header) = f (.loopBegin header')) :
    f m = f m' := by
  rcases h with rfl | ⟨⟨header, rfl⟩, header', rfl⟩
  · rfl
  · exact hf _ _

/-- Whether the levels that are open behind some markers are those behind other ones, unless the
    search ends among these. -/
def KeepsLevels (items items' : List BranchTurn) : Prop :=
  ∀ depth depth', depthAfter BranchTurn.next depth items = some depth' →
    depthAfter BranchTurn.next depth items' = some depth'

theorem KeepsLevels.refl (items : List BranchTurn) : KeepsLevels items items := fun _ _ h => h

theorem KeepsLevels.append {items items' more more' : List BranchTurn}
    (h : KeepsLevels items items') (hmore : KeepsLevels more more') :
    KeepsLevels (items ++ more) (items' ++ more') := by
  intro depth depth' hdepth
  rw [depthAfter_append] at hdepth ⊢
  obtain ⟨inner, hinner, hdepth⟩ := Option.bind_eq_some_iff.1 hdepth
  rw [h _ _ hinner]
  exact hmore _ _ hdepth

theorem BranchTurn.next_add {depth depth' : Nat} {item : BranchTurn}
    (h : BranchTurn.next depth item = some depth') (more : Nat) :
    BranchTurn.next (depth + more) item = some (depth' + more) := by
  cases item with
  | opens =>
    cases h
    exact congrArg some (Nat.add_right_comm _ _ _)
  | separates =>
    cases depth with
    | zero => exact nomatch h
    | succ depth =>
      cases h
      rw [Nat.add_right_comm]
      rfl
  | closes =>
    cases depth with
    | zero => exact nomatch h
    | succ depth =>
      cases h
      rw [Nat.add_right_comm]
      rfl

/-- What leaves the levels as they are does so with more levels open. -/
theorem depthAfter_add {depth depth' : Nat} {items : List BranchTurn}
    (h : depthAfter BranchTurn.next depth items = some depth') (more : Nat) :
    depthAfter BranchTurn.next (depth + more) items = some (depth' + more) := by
  induction items generalizing depth with
  | nil =>
    cases h
    rfl
  | cons item rest ih =>
    rw [depthAfter_cons] at h ⊢
    obtain ⟨inner, hinner, h⟩ := Option.bind_eq_some_iff.1 h
    rw [BranchTurn.next_add hinner more]
    exact ih h

/-- The separator of a conditional does not count outside of it. -/
theorem KeepsLevels.drop_separator {items items' more more' : List BranchTurn}
    (hlevel : depthAfter BranchTurn.next 0 items = some 0) (h : KeepsLevels items items')
    (hmore : KeepsLevels more more') :
    KeepsLevels (.opens :: (items ++ .separates :: more)) (.opens :: (items' ++ more')) := by
  intro depth depth' hdepth
  have hinner := depthAfter_add hlevel (depth + 1)
  rw [Nat.zero_add] at hinner
  have hopens : BranchTurn.next depth .opens = some (depth + 1) := by cases depth <;> rfl
  rw [depthAfter_cons, hopens, Option.bind_some, depthAfter_append, hinner, Option.bind_some,
    depthAfter_cons] at hdepth
  rw [depthAfter_cons, hopens, Option.bind_some, depthAfter_append, h _ _ hinner, Option.bind_some]
  exact hmore _ _ hdepth

/-- Whether a written text has the markers of a source, with whatever a search outside counts. -/
structure IsRewriting (source written : List Char) : Prop where
  closes : closesComments source
  closes_written : closesComments written
  items : ∀ {α : Type} (f : Marker → Option α), IsCoarse f → itemsIn f written = itemsIn f source
  levels : KeepsLevels (itemsIn turnOfBranch source) (itemsIn turnOfBranch written)

namespace IsRewriting

variable {source written rest rest' : List Char}

theorem refl (h : closesComments source) : IsRewriting source source :=
  ⟨h, h, fun _ _ => rfl, KeepsLevels.refl _⟩

theorem append (h : IsRewriting source written) (hrest : IsRewriting rest rest')
    (hapart : StaysApart rest) (hapart' : StaysApart rest') :
    IsRewriting (source ++ rest) (written ++ rest') where
  closes := closesComments_append h.closes hrest.closes hapart
  closes_written := closesComments_append h.closes_written hrest.closes_written hapart'
  items f hf := by
    rw [itemsIn_append f h.closes hapart, itemsIn_append f h.closes_written hapart', h.items f hf,
      hrest.items f hf]
  levels := by
    rw [itemsIn_append _ h.closes hapart, itemsIn_append _ h.closes_written hapart']
    exact h.levels.append hrest.levels

theorem itemsIn_marker {k : Marker} (hk : k.IsProper) {α : Type} (f : Marker → Option α)
    (rest : List Char) : itemsIn f (k.chars ++ '\n' :: rest) = (f k).toList ++ itemsIn f rest := by
  rw [hk.isComment.itemsIn_append, ← List.singleton_append, quiet_newline.itemsIn_append]

theorem closesComments_marker {k : Marker} (hk : k.IsProper) (h : closesComments rest) :
    closesComments (k.chars ++ '\n' :: rest) :=
  hk.isComment.closesComments_append (quiet_newline.closesComments_append h)

variable {e e' : Extent} {m m' k k' : Marker}

/-- A marker is written on a line. -/
theorem marker (he : e.IsOf m) (hapart : e.isApart) (hk : k.IsProper) (hlike : k.IsLike m)
    (h : IsRewriting rest rest') : IsRewriting (e.chars ++ rest) (k.chars ++ '\n' :: rest') where
  closes := he.closesComments_append hapart h.closes
  closes_written := closesComments_marker hk h.closes_written
  items f hf := by
    rw [he.itemsIn_append f hapart, itemsIn_marker hk, hlike.apply_eq hf.loop, h.items f hf]
  levels := by
    have hturn : turnOfBranch k = turnOfBranch m := hlike.apply_eq fun _ _ => rfl
    rw [he.itemsIn_append _ hapart, itemsIn_marker hk, hturn]
    exact (KeepsLevels.refl _).append h.levels

/-- A body between two markers is written between two lines. -/
theorem enclose {body body' : List Char} (he : e.IsOf m) (hapart : e.isApart) (he' : e'.IsOf m')
    (hapart' : e'.isApart) (hk : k.IsProper) (hlike : k.IsLike m) (hk' : k'.IsProper)
    (hlike' : k'.IsLike m') (h : IsRewriting body body') (hrest : IsRewriting rest rest') :
    IsRewriting (e.chars ++ body ++ e'.chars ++ rest) (enclosed k k' body' ++ '\n' :: rest') := by
  have hclose := hrest.marker he' hapart' hk' hlike'
  have hbody := h.append hclose (he'.staysApart hapart' _) (staysApart_cons (by decide) _)
  have hall := hbody.marker he hapart hk hlike
  rw [enclosed_append]
  simpa only [List.append_assoc] using hall

/-- A separator in front of nothing is not written. -/
theorem drop_separator {body body' condition : List Char}
    (he : e.IsOf (.ifBegin condition)) (hapart : e.isApart) (he' : e'.IsOf .ifElse)
    (hapart' : e'.isApart) (hk : (Marker.ifBegin condition).IsProper)
    (hbody : IsBody BranchTurn.next turnOfBranch body) (h : IsRewriting body body')
    (hrest : IsRewriting rest rest') (hstays : StaysApart rest') :
    IsRewriting (e.chars ++ (body ++ (e'.chars ++ rest)))
      ((Marker.ifBegin condition).chars ++ '\n' :: (body' ++ rest')) where
  closes := he.closesComments_append hapart (closesComments_append h.closes
    (he'.closesComments_append hapart' hrest.closes) (he'.staysApart hapart' _))
  closes_written := closesComments_marker hk
    (closesComments_append h.closes_written hrest.closes_written hstays)
  items f hf := by
    rw [he.itemsIn_append f hapart, itemsIn_append f h.closes (he'.staysApart hapart' _),
      he'.itemsIn_append f hapart', hf.separator, itemsIn_marker hk,
      itemsIn_append f h.closes_written hstays, h.items f hf, hrest.items f hf]
    rfl
  levels := by
    rw [he.itemsIn_append _ hapart, itemsIn_append _ h.closes (he'.staysApart hapart' _),
      he'.itemsIn_append _ hapart', itemsIn_marker hk, itemsIn_append _ h.closes_written hstays]
    have hdrop := KeepsLevels.drop_separator hbody.level h.levels hrest.levels
    exact hdrop

end IsRewriting

end BlockTemplate
