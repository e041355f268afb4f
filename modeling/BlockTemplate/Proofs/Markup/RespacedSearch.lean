import Mathlib
import BlockTemplate.Proofs.Markup.Extent
import BlockTemplate.Proofs.Markup.RespacedHeaders

/-!
# Searches in respaced texts

A text is settled if what its markers say does not depend on the gaps in them. In two texts of
which one is settled and the other one a respaced version of it, each search finds the same at
corresponding positions, which are those with equally many characters in front of them that are in
no gap.

## Key results

- `findAll_respaced`, `find?_respaced`: searches of markers
- `blockEnd?_respaced`, `loopEnd?_respaced`, `ifEnds_respaced`: ends of constructs
- `isStable_opener?`: where constructs start
-/

namespace BlockTemplate

/-! ## Settled texts -/

/-- Whether a marker means the same with other gaps in its header. -/
def Marker.isSettled : Marker → Bool
  | .loopBegin header =>
    (LoopHeader.parse? header).all fun parsed =>
      isSingleSpaced parsed.collection.source.shown.toList
  | .ifBegin condition => keepsWords condition
  | _ => true

/-- Whether what a comment says means the same with other gaps in it. -/
def isSettledContent (content : List Char) : Bool :=
  !content.contains '\x00' && (Marker.ofContent? (trimBlank content)).all Marker.isSettled

/-- Whether the comments in a text mean the same with other gaps in them. -/
def isSettled (s : List Char) : Bool := s.tails.all fun rest => (comment? rest).all isSettledContent

theorem isSettledContent_of_comment? {s content : List Char} (h : isSettled s)
    (hcontent : comment? s = some content) : isSettledContent content := by
  have hall := List.all_eq_true.1 h s ((List.mem_tails s s).2 List.suffix_rfl)
  rwa [hcontent] at hall

/-- The comments in a piece of a text are comments in the text. -/
theorem isSettled_of_isInfix {s t : List Char} (h : isSettled t) (hs : s <:+: t) : isSettled s := by
  obtain ⟨before, after, rfl⟩ := hs
  refine List.all_eq_true.2 fun rest hrest => ?_
  obtain ⟨front, rfl⟩ := (List.mem_tails rest s).1 hrest
  cases hcontent : comment? rest with
  | none => rfl
  | some content =>
    have hmem : rest ++ after ∈ (before ++ (front ++ rest) ++ after).tails :=
      (List.mem_tails _ _).2 ⟨before ++ front, by simp only [List.append_assoc]⟩
    have hall := List.all_eq_true.1 h _ hmem
    rwa [comment?_append_of_some hcontent after] at hall

theorem noNull_of_isSettled {s content : List Char} (h : isSettled s)
    (hcontent : comment? s = some content) : '\x00' ∉ content := by
  have hsettled := isSettledContent_of_comment? h hcontent
  rw [isSettledContent, Bool.and_eq_true, Bool.not_eq_true', List.contains_eq_mem,
    decide_eq_false_iff_not] at hsettled
  exact hsettled.1

theorem isSettled_of_marker? {s : List Char} {m : Marker} {size : Nat} (h : isSettled s)
    (hm : marker? s = some (m, size)) : m.isSettled := by
  obtain ⟨content, hcontent, hm⟩ := Option.bind_eq_some_iff.1 hm
  obtain ⟨m', hm', heq⟩ := Option.bind_eq_some_iff.1 hm
  cases heq
  have hsettled := isSettledContent_of_comment? h hcontent
  rw [isSettledContent, hm', Bool.and_eq_true] at hsettled
  exact hsettled.2

theorem MarkerAt.isSettled {code : List Char} {start stop : Nat} {m : Marker}
    (hm : MarkerAt code start stop m) (h : isSettled code) : m.isSettled :=
  isSettled_of_marker? (isSettled_of_isInfix h (List.drop_suffix _ _).isInfix) hm.marker

/-! ## Corresponding positions -/

/-- Whether equally many characters that are in no gap stand before two positions. -/
def Corresponds (code code' : List Char) (pos pos' : Nat) : Prop :=
  solidCount (code.take pos) = solidCount (code'.take pos')

theorem corresponds_zero (code code' : List Char) : Corresponds code code' 0 0 := rfl

theorem solidCount_take_add (s : List Char) (k l : Nat) :
    solidCount (s.take (k + l)) = solidCount (s.take k) + solidCount ((s.drop k).take l) := by
  rw [List.take_add, solidCount_append]

theorem Corresponds.add {code code' : List Char} {pos pos' size size' : Nat}
    (h : Corresponds code code' pos pos')
    (hsize : solidCount ((code.drop pos).take size) = solidCount ((code'.drop pos').take size')) :
    Corresponds code code' (pos + size) (pos' + size') := by
  rw [Corresponds, solidCount_take_add, solidCount_take_add, h, hsize]

theorem IsGap.solidCount_take_append {g : List Char} (hg : IsGap g) (s : List Char) (k : Nat) :
    solidCount ((g ++ s).take k) = solidCount (s.take (k - g.length)) := by
  rw [List.take_append, solidCount_append, (hg.take k).solidCount_eq, Nat.zero_add]

/-- Whether the same is found in two texts, at corresponding positions. -/
structure Found.Agrees {α : Type} (R : α → α → Prop) (code code' : List Char)
    (found found' : Found α) : Prop where
  item : R found.item found'.item
  start : Corresponds code code' found.start found'.start
  stop : Corresponds code code' found.stop found'.stop

/-! ## Stable recognizers -/

section
variable {α : Type} {R : α → α → Prop} {recognize : List Char → Option (α × Nat)}

/-- Whether in settled texts the same is recognized when they are respaced, which never starts with
    a gap. -/
structure IsStable (R : α → α → Prop) (recognize : List Char → Option (α × Nat)) : Prop where
  fits : Fits recognize
  spacing : ∀ c s, isSpacing c → recognize (c :: s) = none
  respaced : ∀ d s s', isSpacing d = false → isSettled (d :: s) →
    Respaced looseRule none (some d) s s' →
    Option.Rel (fun find find' => R find.1 find'.1
        ∧ solidCount ((d :: s).take find.2) = solidCount ((d :: s').take find'.2))
      (recognize (d :: s)) (recognize (d :: s'))

/-- Nothing is found in a gap. -/
theorem IsStable.findAll_gap_append (h : IsStable R recognize) {g : List Char} (hg : IsGap g)
    (skipped pos : Nat) (s : List Char) :
    findAll recognize skipped pos (g ++ s)
      = findAll recognize (skipped - g.length) (pos + g.length) s := by
  induction g generalizing skipped pos with
  | nil => rfl
  | cons c g ih =>
    obtain ⟨hc, hg⟩ := isGap_cons.1 hg
    have hpos : pos + (c :: g).length = pos + 1 + g.length := by
      rw [List.length_cons]
      omega
    rw [hpos, List.cons_append]
    cases skipped with
    | zero =>
      simp only [findAll, h.spacing c _ hc]
      rw [ih hg, Nat.zero_sub, Nat.zero_sub]
    | succ skipped =>
      simp only [findAll]
      rw [ih hg, List.length_cons, Nat.succ_sub_succ]

theorem IsStable.findAll_isGap (h : IsStable R recognize) {g : List Char} (hg : IsGap g)
    (skipped pos : Nat) : findAll recognize skipped pos g = [] := by
  have hnil := h.findAll_gap_append hg skipped pos []
  rwa [List.append_nil] at hnil

variable {code code' : List Char}

theorem drop_length_add {pos : Nat} {g s : List Char} (h : code.drop pos = g ++ s) :
    code.drop (pos + g.length) = s := by
  rw [← List.drop_drop, h, List.drop_left]

/-- The same is found from a character on that both texts go on with, if it is so behind it. -/
theorem findAll_cons_respaced (hstable : IsStable R recognize) {d : Char} {s s' : List Char}
    (hd : isSpacing d = false) (hs : Respaced looseRule none (some d) s s')
    (hsettled : isSettled (d :: s)) {skipped skipped' pos pos' : Nat}
    (hcode : code.drop pos = d :: s) (hcode' : code'.drop pos' = d :: s')
    (hpos : Corresponds code code' pos pos')
    (hskipped : solidCount ((d :: s).take skipped) = solidCount ((d :: s').take skipped'))
    (hlater : ∀ {skipped skipped' : Nat},
      solidCount (s.take skipped) = solidCount (s'.take skipped') →
      List.Forall₂ (Found.Agrees R code code') (findAll recognize skipped (pos + 1) s)
        (findAll recognize skipped' (pos' + 1) s')) :
    List.Forall₂ (Found.Agrees R code code') (findAll recognize skipped pos (d :: s))
      (findAll recognize skipped' pos' (d :: s')) := by
  have htake (s : List Char) (k : Nat) :
      solidCount ((d :: s).take (k + 1)) = solidCount (s.take k) + 1 := by
    rw [List.take_succ_cons, solidCount_cons hd]
  rcases skipped with _ | skipped
  · rcases skipped' with _ | skipped'
    · have hrecognized := hstable.respaced d s s' hd hsettled hs
      rw [findAll, findAll]
      generalize hfind : recognize (d :: s) = o, hfind' : recognize (d :: s') = o' at hrecognized
      cases hrecognized with
      | none => exact hlater rfl
      | @some find find' h =>
        obtain ⟨hitem, hsize⟩ := h
        refine .cons ⟨hitem, hpos, hpos.add (by rw [hcode, hcode', hsize])⟩ (hlater ?_)
        -- the rest of the find is skipped
        obtain ⟨size, heq⟩ := Nat.exists_eq_succ_of_ne_zero (Nat.ne_of_gt (hstable.fits hfind).1)
        obtain ⟨size', heq'⟩ :=
          Nat.exists_eq_succ_of_ne_zero (Nat.ne_of_gt (hstable.fits hfind').1)
        rw [heq, heq', htake, htake] at hsize
        rw [heq, heq']
        exact Nat.succ.inj hsize
    · rw [htake] at hskipped
      exact absurd hskipped (Nat.succ_ne_zero _).symm
  · rcases skipped' with _ | skipped'
    · rw [htake] at hskipped
      exact absurd hskipped (Nat.succ_ne_zero _)
    · rw [htake, htake] at hskipped
      rw [findAll, findAll]
      exact hlater (Nat.succ.inj hskipped)

/-- The same is found in a respaced text, in the same order. -/
theorem findAll_respaced (hstable : IsStable R recognize) {previous : Option Char}
    {s s' : List Char} (hs : Respaced looseRule none previous s s') (hsettled : isSettled s)
    {skipped skipped' pos pos' : Nat} (hcode : code.drop pos = s) (hcode' : code'.drop pos' = s')
    (hpos : Corresponds code code' pos pos')
    (hskipped : solidCount (s.take skipped) = solidCount (s'.take skipped')) :
    List.Forall₂ (Found.Agrees R code code') (findAll recognize skipped pos s)
      (findAll recognize skipped' pos' s') := by
  induction hs generalizing skipped skipped' pos pos' with
  | last hg hg' _ =>
    rw [hstable.findAll_isGap hg, hstable.findAll_isGap hg']
    exact .nil
  | @cons _ g g' d s s' hg hg' hd _ hs ih =>
    rw [hg.solidCount_take_append, hg'.solidCount_take_append] at hskipped
    rw [hstable.findAll_gap_append hg, hstable.findAll_gap_append hg']
    have hhere := drop_length_add hcode
    have hhere' := drop_length_add hcode'
    have hstart : Corresponds code code' (pos + g.length) (pos' + g'.length) := by
      refine hpos.add ?_
      rw [hcode, hcode', List.take_left, List.take_left, hg.solidCount_eq, hg'.solidCount_eq]
    have hnext : Corresponds code code' (pos + g.length + 1) (pos' + g'.length + 1) := by
      refine hstart.add ?_
      rw [hhere, hhere']
      rfl
    have hcons : isSettled (d :: s) :=
      isSettled_of_isInfix hsettled (List.suffix_append g _).isInfix
    have hrest : isSettled s := isSettled_of_isInfix hcons (List.suffix_cons d s).isInfix
    -- at a character that is in no gap both searches find the same, and they go on behind it
    refine findAll_cons_respaced hstable hd hs hcons hhere hhere' hstart hskipped fun hskip => ?_
    exact ih hrest (drop_length_add (g := [d]) hhere) (drop_length_add (g := [d]) hhere') hnext
      hskip

/-- The first find of all. -/
theorem find?_eq_head?_findAll (recognize : List Char → Option (α × Nat)) (pos : Nat)
    (s : List Char) : find? recognize pos s = (findAll recognize 0 pos s).head? := by
  induction s generalizing pos with
  | nil => rfl
  | cons c s ih =>
    rw [find?, findAll]
    cases recognize (c :: s) with
    | none => exact ih (pos + 1)
    | some find => rfl

end

/-! ## Markers -/

section
variable {α : Type} {R : α → α → Prop}

/-- Markers are stable, and so is what is told from a marker without its header. -/
theorem isStable_markerAs {f : Marker → Option α}
    (hf : ∀ m m', m.IsRespaced m' → Option.Rel R (f m) (f m')) : IsStable R (markerAs f) where
  fits := fits_markerAs f
  spacing := by
    intro c s hc
    have hstart : afterPattern? commentStart (c :: s) = none :=
      afterPattern?_eq_none_of_isSpacing (by decide) hc _ s
    exact needsComment_markerAs f hstart
  respaced := by
    intro d s s' _ hsettled hs
    have hmarker := marker?_respaced hs fun content => noNull_of_isSettled hsettled
    refine rel_bind hmarker fun found found' h => ?_
    refine rel_map (hf _ _ h.1) fun item item' hitem => ⟨hitem, h.2⟩

end

theorem isStable_blockTurn? (name : List Char) : IsStable Eq (blockTurn? name) := by
  rw [blockTurn?_eq_markerAs]
  refine isStable_markerAs fun m m' h => ?_
  cases h <;> exact rel_eq_refl _

theorem isStable_loopTurn? : IsStable Eq loopTurn? := by
  rw [loopTurn?_eq_markerAs]
  refine isStable_markerAs fun m m' h => ?_
  cases h <;> exact rel_eq_refl _

theorem isStable_branchTurn? : IsStable Eq branchTurn? := by
  rw [branchTurn?_eq_markerAs]
  refine isStable_markerAs fun m m' h => ?_
  cases h <;> exact rel_eq_refl _

/-! ## Ends of constructs -/

section
variable {code code' : List Char}

theorem closing?_respaced {markers markers' : List (Found Turn)}
    (h : List.Forall₂ (Found.Agrees Eq code code') markers markers') (depth : Nat) :
    Option.Rel (Found.Agrees Eq code code') (closing? depth markers) (closing? depth markers') := by
  induction h generalizing depth with
  | nil => exact .none
  | cons hfound _ ih =>
    simp only [closing?, ← hfound.item]
    split
    · exact ih _
    · exact .some hfound
    · exact ih _

theorem branchEnds_respaced {markers markers' : List (Found BranchTurn)}
    (h : List.Forall₂ (Found.Agrees Eq code code') markers markers') {depth : Nat}
    {separator separator' : Option (Found BranchTurn)}
    (hseparator : Option.Rel (Found.Agrees Eq code code') separator separator')
    {ends : Option (Found BranchTurn) × Found BranchTurn}
    (hends : branchEnds depth separator markers = .ok ends) :
    ∃ ends', branchEnds depth separator' markers' = .ok ends'
      ∧ Option.Rel (Found.Agrees Eq code code') ends.1 ends'.1
      ∧ Found.Agrees Eq code code' ends.2 ends'.2 := by
  induction h generalizing depth separator separator' with
  | nil => cases hends
  | cons hfound _ ih =>
    simp only [branchEnds] at hends
    simp only [branchEnds, ← hfound.item]
    split at hends
    · exact ih hseparator hends
    · cases hseparator with
      | none => exact ih (.some hfound) hends
      | some _ => cases hends
    · exact ih hseparator hends
    · cases hends
      exact ⟨_, rfl, hseparator, hfound⟩
    · exact ih hseparator hends

variable (hs : Respaced looseRule none none code code') (hsettled : isSettled code)
  {pos pos' : Nat} (hpos : Corresponds code code' pos pos')
include hs hsettled hpos

theorem findAll_drop_respaced {α : Type} {R : α → α → Prop}
    {recognize : List Char → Option (α × Nat)} (hstable : IsStable R recognize) :
    List.Forall₂ (Found.Agrees R code code') (findAll recognize 0 pos (code.drop pos))
      (findAll recognize 0 pos' (code'.drop pos')) :=
  findAll_respaced hstable (hs.drop hpos)
    (isSettled_of_isInfix hsettled (List.drop_suffix pos code).isInfix) rfl rfl hpos rfl

theorem find?_respaced {α : Type} {R : α → α → Prop}
    {recognize : List Char → Option (α × Nat)} (hstable : IsStable R recognize) :
    Option.Rel (Found.Agrees R code code') (find? recognize pos (code.drop pos))
      (find? recognize pos' (code'.drop pos')) := by
  have hall := findAll_drop_respaced hs hsettled hpos hstable
  rw [find?_eq_head?_findAll, find?_eq_head?_findAll]
  generalize findAll recognize 0 pos (code.drop pos) = finds,
    findAll recognize 0 pos' (code'.drop pos') = finds' at hall
  cases hall with
  | nil => exact .none
  | cons h _ => exact .some h

theorem blockEnd?_respaced (name : List Char) :
    Option.Rel (Found.Agrees Eq code code') (blockEnd? name pos (code.drop pos))
      (blockEnd? name pos' (code'.drop pos')) :=
  closing?_respaced (findAll_drop_respaced hs hsettled hpos (isStable_blockTurn? name)) 0

theorem loopEnd?_respaced :
    Option.Rel (Found.Agrees Eq code code') (loopEnd? pos (code.drop pos))
      (loopEnd? pos' (code'.drop pos')) :=
  closing?_respaced (findAll_drop_respaced hs hsettled hpos isStable_loopTurn?) 0

theorem ifEnds_respaced {ends : Option (Found BranchTurn) × Found BranchTurn}
    (h : ifEnds pos (code.drop pos) = .ok ends) :
    ∃ ends', ifEnds pos' (code'.drop pos') = .ok ends'
      ∧ Option.Rel (Found.Agrees Eq code code') ends.1 ends'.1
      ∧ Found.Agrees Eq code code' ends.2 ends'.2 :=
  branchEnds_respaced (findAll_drop_respaced hs hsettled hpos isStable_branchTurn?) .none h

end

/-! ## Openers -/

/-- What follows the first marker of two texts. -/
theorem blockEnd?_behind_respaced {d : Char} {s s' : List Char} (hd : isSpacing d = false)
    (hs : Respaced looseRule none (some d) s s') (hsettled : isSettled (d :: s)) {size size' : Nat}
    (hsize : solidCount ((d :: s).take size) = solidCount ((d :: s').take size'))
    (name : List Char) :
    Option.Rel (Found.Agrees Eq ((d :: s).drop size) ((d :: s').drop size'))
      (blockEnd? name 0 ((d :: s).drop size)) (blockEnd? name 0 ((d :: s').drop size')) := by
  have hcons : Respaced looseRule none none (d :: s) (d :: s') :=
    .here hd (.inl rfl) hs
  exact blockEnd?_respaced (hcons.drop hsize)
    (isSettled_of_isInfix hsettled (List.drop_suffix size _).isInfix) (corresponds_zero _ _) name

theorem isStable_opener? : IsStable Marker.IsRespaced opener? where
  fits := fits_opener?
  spacing := by
    intro c s hc
    have hstart : afterPattern? commentStart (c :: s) = none :=
      afterPattern?_eq_none_of_isSpacing (by decide) hc _ s
    exact needsComment_opener? hstart
  respaced := by
    intro d s s' hd hsettled hs
    have hmarker := marker?_respaced hs fun content => noNull_of_isSettled hsettled
    rw [opener?, opener?]
    generalize marker? (d :: s) = o, marker? (d :: s') = o' at hmarker
    cases hmarker with
    | none => exact .none
    | @some found found' h =>
      obtain ⟨m, size⟩ := found
      obtain ⟨m', size'⟩ := found'
      obtain ⟨hm, hsize⟩ := h
      dsimp only at hm hsize
      cases hm with
      | blockBegin name =>
        -- whether a block is closed is the same in both texts, for the search for its end is stable
        have hclosed := blockEnd?_behind_respaced hd hs hsettled hsize name
        dsimp only
        generalize blockEnd? name 0 ((d :: s).drop size) = close,
          blockEnd? name 0 ((d :: s').drop size') = close' at hclosed
        cases hclosed with
        | none => exact .none
        | some _ => exact .some ⟨.blockBegin name, hsize⟩
      | loopBegin h => exact .some ⟨.loopBegin h, hsize⟩
      | ifBegin h => exact .some ⟨.ifBegin h, hsize⟩
      | _ => exact .none

end BlockTemplate
