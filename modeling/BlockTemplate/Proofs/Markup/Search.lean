import BlockTemplate.Proofs.Markup.Construct
import Mathlib

/-!
# Searches for markers

What a search finds stands in the text where the search says, and finds do not overlap. No marker
that is looked for starts outside of the finds. The markers of a construct are found one behind the
other.

## Key results

- `findAll_isFind`, `pairwise_findAll`: finds are where they are said to be, one behind the other
- `exists_markerAt_of_opener?`, `exists_markerAt_of_findAll`: at a find there is a marker
- `areMarkersFrom_findAll`, `AreMarkersFrom.unique`: the finds are the markers of a kind, and no
  others
- `item_of_closing?`, `item_of_branchEnds`, `sublist_of_branchEnds`: the end of a construct closes
  it, and what separates its branches stands before the end
-/

namespace BlockTemplate

/-- A marker with its place: the comment that says so is between the positions. -/
structure MarkerAt (code : List Char) (start stop : Nat) (m : Marker) : Prop where
  start_le : start ≤ stop
  marker : marker? (code.drop start) = some (m, stop - start)

namespace MarkerAt

variable {code : List Char} {start stop : Nat} {m : Marker}

theorem start_lt (h : MarkerAt code start stop m) : start < stop := by
  have := size_of_marker? h.marker
  omega

theorem stop_le (h : MarkerAt code start stop m) : stop ≤ code.length := by
  have hsize := size_of_marker? h.marker
  have hlt := h.start_lt
  rw [List.length_drop] at hsize
  omega

theorem start_le_length (h : MarkerAt code start stop m) : start ≤ code.length :=
  Nat.le_trans h.start_le h.stop_le

end MarkerAt

/-! ## Finds at their places -/

variable {α : Type} {recognize : List Char → Option (α × Nat)}

/-- Whether something is found in a text that starts at position `pos`, where it is said to be. -/
structure Found.IsFind (recognize : List Char → Option (α × Nat)) (pos : Nat) (s : List Char)
    (found : Found α) : Prop where
  pos_le : pos ≤ found.start
  start_le : found.start ≤ found.stop
  recognized : recognize (s.drop (found.start - pos)) = some (found.item, found.stop - found.start)

/-- A find at the start of a text. -/
theorem isFind_here {s : List Char} {item : α} {size : Nat} (pos : Nat)
    (h : recognize s = some (item, size)) :
    Found.IsFind recognize pos s ⟨pos, pos + size, item⟩ where
  pos_le := Nat.le_refl _
  start_le := Nat.le_add_right _ _
  recognized := by
    simp only [Nat.sub_self, List.drop_zero, Nat.add_sub_cancel_left]
    exact h

/-- A find in what follows the first character. -/
theorem Found.IsFind.cons {pos : Nat} {s : List Char} {found : Found α}
    (h : found.IsFind recognize (pos + 1) s) (c : Char) : found.IsFind recognize pos (c :: s) where
  pos_le := by have := h.pos_le; omega
  start_le := h.start_le
  recognized := by
    have hpos := h.pos_le
    have hdrop : found.start - pos = (found.start - (pos + 1)) + 1 := by omega
    rw [hdrop, List.drop_succ_cons]
    exact h.recognized

theorem find?_isFind {pos : Nat} {s : List Char} {found : Found α}
    (h : find? recognize pos s = some found) : found.IsFind recognize pos s := by
  induction s generalizing pos with
  | nil => exact nomatch h
  | cons c s ih =>
    simp only [find?] at h
    split at h
    · rename_i hitem
      cases h
      exact isFind_here pos hitem
    · exact (ih h).cons c

theorem findAll_isFind {skipped pos : Nat} {s : List Char} :
    ∀ found ∈ findAll recognize skipped pos s, found.IsFind recognize pos s := by
  induction s generalizing skipped pos with
  | nil => exact fun found h => nomatch h
  | cons c s ih =>
    intro found h
    simp only [findAll] at h
    split at h
    · exact (ih found h).cons c
    · split at h
      · rename_i hitem
        rcases List.mem_cons.1 h with rfl | h
        · exact isFind_here pos hitem
        · exact (ih found h).cons c
      · exact (ih found h).cons c

/-- Nothing is found in the characters of an earlier find. -/
theorem findAll_skipped_le {skipped pos : Nat} {s : List Char} :
    ∀ found ∈ findAll recognize skipped pos s, pos + skipped ≤ found.start := by
  induction s generalizing skipped pos with
  | nil => exact fun found h => nomatch h
  | cons c s ih =>
    intro found h
    simp only [findAll] at h
    split at h
    · have := ih found h
      omega
    · split at h
      · rcases List.mem_cons.1 h with rfl | h
        · exact Nat.le_refl _
        · have := ih found h
          omega
      · have := ih found h
        omega

/-- Finds stand one behind the other. -/
theorem pairwise_findAll (hfits : Fits recognize) {skipped pos : Nat} {s : List Char} :
    (findAll recognize skipped pos s).Pairwise fun a b => a.stop ≤ b.start := by
  induction s generalizing skipped pos with
  | nil => exact List.Pairwise.nil
  | cons c s ih =>
    simp only [findAll]
    split
    · exact ih
    · split
      · rename_i hitem
        have hsize := hfits hitem
        refine List.pairwise_cons.2 ⟨fun found h => ?_, ih⟩
        have := findAll_skipped_le found h
        dsimp only
        omega
      · exact ih

/-! ## Finds that are markers -/

theorem exists_marker_of_markerAs {f : Marker → Option α} {s : List Char} {item : α} {size : Nat}
    (h : markerAs f s = some (item, size)) : ∃ m, marker? s = some (m, size) ∧ f m = some item := by
  obtain ⟨⟨m, size'⟩, hm, h⟩ := Option.bind_eq_some_iff.1 h
  obtain ⟨item', hitem, heq⟩ := Option.map_eq_some_iff.1 h
  cases heq
  exact ⟨m, hm, hitem⟩

theorem fits_markerAs (f : Marker → Option α) : Fits (markerAs f) := by
  intro s item size h
  obtain ⟨m, hm, -⟩ := exists_marker_of_markerAs h
  exact size_of_marker? hm

/-- A find in what follows a position of a text is a find at a place of the text. -/
theorem markerAt_of_isFind {f : Marker → Option α} {code : List Char} {pos : Nat} {found : Found α}
    (h : found.IsFind (markerAs f) pos (code.drop pos)) :
    ∃ m, MarkerAt code found.start found.stop m ∧ f m = some found.item := by
  obtain ⟨m, hm, hitem⟩ := exists_marker_of_markerAs h.recognized
  have hplace : pos + (found.start - pos) = found.start := Nat.add_sub_cancel' h.pos_le
  rw [List.drop_drop, hplace] at hm
  exact ⟨m, ⟨h.start_le, hm⟩, hitem⟩

theorem exists_markerAt_of_findAll {f : Marker → Option α} {code : List Char} {skipped pos : Nat}
    {found : Found α} (h : found ∈ findAll (markerAs f) skipped pos (code.drop pos)) :
    ∃ m, MarkerAt code found.start found.stop m ∧ f m = some found.item ∧ pos ≤ found.start := by
  have hfind := findAll_isFind found h
  obtain ⟨m, hm, hitem⟩ := markerAt_of_isFind hfind
  exact ⟨m, hm, hitem, hfind.pos_le⟩

/-- Where a construct starts, there is the marker that opens it. -/
theorem marker?_of_opener? {s : List Char} {m : Marker} {size : Nat}
    (h : opener? s = some (m, size)) : marker? s = some (m, size) := by
  unfold opener? at h
  split at h
  · rename_i name size' hm
    split at h
    · cases h
      exact hm
    · exact nomatch h
  · rename_i header size' hm
    cases h
    exact hm
  · rename_i condition size' hm
    cases h
    exact hm
  · exact nomatch h

theorem markerAt_of_find?_opener? {code : List Char} {pos : Nat} {opener : Found Marker}
    (h : find? opener? pos (code.drop pos) = some opener) :
    MarkerAt code opener.start opener.stop opener.item ∧ pos ≤ opener.start := by
  have hfind := find?_isFind h
  have hm := marker?_of_opener? hfind.recognized
  have hplace : pos + (opener.start - pos) = opener.start := Nat.add_sub_cancel' hfind.pos_le
  rw [List.drop_drop, hplace] at hm
  exact ⟨⟨hfind.start_le, hm⟩, hfind.pos_le⟩

/-! ## All markers of a kind -/

section
variable {f : Marker → Option α} {code : List Char} {pos : Nat}
  {founds others : List (Found α)}

/-- The markers of a kind behind a position, from the left and without overlap: none of the kind
    starts outside of them. -/
structure AreMarkersFrom (f : Marker → Option α) (code : List Char) (pos : Nat)
    (founds : List (Found α)) : Prop where
  areMarkers : ∀ found ∈ founds, pos ≤ found.start
    ∧ ∃ m, MarkerAt code found.start found.stop m ∧ f m = some found.item
  areApart : founds.Pairwise fun a b => a.stop ≤ b.start
  areAll : ∀ start stop m, pos ≤ start → MarkerAt code start stop m → (f m).isSome →
    ∃ found ∈ founds, found.start ≤ start ∧ start < found.stop

/-- What is recognized behind the characters that are skipped starts within a find. -/
theorem exists_found_of_recognize (hfits : Fits recognize) {skipped : Nat} (pos : Nat) {k : Nat}
    {s : List Char} (hk : k < s.length) (hskipped : skipped ≤ k)
    (h : (recognize (s.drop k)).isSome) :
    ∃ found ∈ findAll recognize skipped pos s, found.start ≤ pos + k ∧ pos + k < found.stop := by
  induction s generalizing skipped pos k with
  | nil => exact absurd hk (Nat.not_lt_zero k)
  | cons c s ih =>
    -- the same place, seen from the next character on
    have hnext (skipped : Nat) {k : Nat} (hk : k + 1 < (c :: s).length) (hskipped : skipped ≤ k)
        (h : (recognize ((c :: s).drop (k + 1))).isSome) :
        ∃ found ∈ findAll recognize skipped (pos + 1) s,
          found.start ≤ pos + (k + 1) ∧ pos + (k + 1) < found.stop := by
      obtain ⟨found, hmem, hplace⟩ := ih (pos + 1) (Nat.lt_of_succ_lt_succ hk) hskipped h
      exact ⟨found, hmem, by omega, by omega⟩
    simp only [findAll]
    split
    · obtain ⟨k, rfl⟩ : ∃ n, k = n + 1 := Nat.exists_eq_add_one.2 (by omega)
      exact hnext _ hk (by omega) h
    · split
      · rename_i item size hitem
        have hsize := (hfits hitem).1
        by_cases hwithin : k < size
        · exact ⟨_, List.mem_cons_self, Nat.le_add_right _ _, Nat.add_lt_add_left hwithin pos⟩
        · obtain ⟨k, rfl⟩ : ∃ n, k = n + 1 := Nat.exists_eq_add_one.2 (by omega)
          obtain ⟨found, hmem, hplace⟩ := hnext (size - 1) hk (by omega) h
          exact ⟨found, List.mem_cons_of_mem _ hmem, hplace⟩
      · rename_i hnone
        cases k with
        | zero =>
          rw [List.drop_zero, hnone] at h
          exact absurd h Bool.false_ne_true
        | succ k => exact hnext 0 hk (Nat.zero_le k) h

theorem areMarkersFrom_findAll (f : Marker → Option α) (code : List Char) (pos : Nat) :
    AreMarkersFrom f code pos (findAll (markerAs f) 0 pos (code.drop pos)) where
  areMarkers found hfound := by
    obtain ⟨m, hm, hitem, hpos⟩ := exists_markerAt_of_findAll hfound
    exact ⟨hpos, m, hm, hitem⟩
  areApart := pairwise_findAll (fits_markerAs f)
  areAll start stop m hpos hm hitem := by
    have hstart := hm.start_lt
    have hstop := hm.stop_le
    have hplace : pos + (start - pos) = start := Nat.add_sub_cancel' hpos
    have hrecognized : (markerAs f ((code.drop pos).drop (start - pos))).isSome := by
      rw [List.drop_drop, hplace, markerAs, hm.marker, Option.bind_some, Option.isSome_map]
      exact hitem
    have hlength : start - pos < (code.drop pos).length := by
      rw [List.length_drop]
      omega
    have hfound := exists_found_of_recognize (fits_markerAs f) pos hlength (Nat.zero_le _)
      hrecognized
    rw [hplace] at hfound
    exact hfound

namespace AreMarkersFrom

theorem ne_nil (h : AreMarkersFrom f code pos founds) {start stop : Nat} {m : Marker}
    (hpos : pos ≤ start) (hm : MarkerAt code start stop m) (hitem : (f m).isSome) :
    founds ≠ [] := by
  rintro rfl
  obtain ⟨found, hfound, -⟩ := h.areAll start stop m hpos hm hitem
  exact nomatch hfound

/-- No marker of the kind stands before the first one. -/
theorem start_le {found : Found α} (h : AreMarkersFrom f code pos (found :: founds))
    {start stop : Nat} {m : Marker} (hpos : pos ≤ start) (hm : MarkerAt code start stop m)
    (hitem : (f m).isSome) : found.start ≤ start := by
  obtain ⟨-, m', hm', -⟩ := h.areMarkers found List.mem_cons_self
  have hlt := hm'.start_lt
  obtain ⟨other, hother, hle, -⟩ := h.areAll start stop m hpos hm hitem
  rcases List.mem_cons.1 hother with rfl | hother
  · exact hle
  · have := (List.pairwise_cons.1 h.areApart).1 other hother
    omega

/-- Behind the first marker are the others. -/
theorem tail {found : Found α} (h : AreMarkersFrom f code pos (found :: founds)) :
    AreMarkersFrom f code found.stop founds where
  areMarkers other hother :=
    ⟨(List.pairwise_cons.1 h.areApart).1 other hother,
      (h.areMarkers other (List.mem_cons_of_mem _ hother)).2⟩
  areApart := (List.pairwise_cons.1 h.areApart).2
  areAll start stop m hstart hm hitem := by
    obtain ⟨hpos, m', hm', -⟩ := h.areMarkers found List.mem_cons_self
    have hlt := hm'.start_lt
    obtain ⟨other, hother, hplace⟩ := h.areAll start stop m (by omega) hm hitem
    rcases List.mem_cons.1 hother with rfl | hother
    · omega
    · exact ⟨other, hother, hplace⟩

/-- The text has no other markers of the kind behind the position. -/
theorem unique (h : AreMarkersFrom f code pos founds) (h' : AreMarkersFrom f code pos others) :
    founds = others := by
  induction founds generalizing pos others with
  | nil =>
    cases others with
    | nil => rfl
    | cons other others =>
      obtain ⟨hpos, m, hm, hitem⟩ := h'.areMarkers other List.mem_cons_self
      exact absurd rfl (h.ne_nil hpos hm (Option.isSome_of_eq_some hitem))
  | cons found founds ih =>
    obtain ⟨hpos, m, hm, hitem⟩ := h.areMarkers found List.mem_cons_self
    cases others with
    | nil => exact absurd rfl (h'.ne_nil hpos hm (Option.isSome_of_eq_some hitem))
    | cons other others =>
      obtain ⟨hpos', m', hm', hitem'⟩ := h'.areMarkers other List.mem_cons_self
      -- none of the first finds starts before the other, and what is at their place is one marker
      have hstart : found.start = other.start :=
        Nat.le_antisymm (h.start_le hpos' hm' (Option.isSome_of_eq_some hitem'))
          (h'.start_le hpos hm (Option.isSome_of_eq_some hitem))
      obtain rfl : found = other := by
        obtain ⟨start, stop, item⟩ := found
        obtain ⟨start', stop', item'⟩ := other
        obtain rfl : start = start' := hstart
        obtain ⟨rfl, hsize⟩ := Prod.mk.inj (Option.some.inj (hm.marker.symm.trans hm'.marker))
        obtain rfl : item = item' := Option.some.inj (hitem.symm.trans hitem')
        have hlt := hm.start_lt
        have hlt' := hm'.start_lt
        obtain rfl : stop = stop' := by
          dsimp only at hsize hlt hlt'
          omega
        rfl
      rw [ih h.tail h'.tail]

theorem pairwise_start (h : AreMarkersFrom f code pos founds) :
    founds.Pairwise fun a b => a.start < b.start := by
  refine h.areApart.imp_of_mem fun {a b} ha hb hle => ?_
  obtain ⟨-, m, hm, -⟩ := h.areMarkers a ha
  exact Nat.lt_of_lt_of_le hm.start_lt hle

end AreMarkersFrom

end

/-! ## Ends of constructs -/

theorem item_of_closing? {depth : Nat} {markers : List (Found Turn)} {found : Found Turn}
    (h : closing? depth markers = some found) : found.item = .closes := by
  fun_induction closing? depth markers <;> simp_all

theorem item_of_branchEnds {depth : Nat} {separator : Option (Found BranchTurn)}
    {markers : List (Found BranchTurn)} {ends : Option (Found BranchTurn) × Found BranchTurn}
    (hseparator : ∀ found ∈ separator, found.item = .separates)
    (h : branchEnds depth separator markers = .ok ends) :
    ends.2.item = .closes ∧ ∀ found ∈ ends.1, found.item = .separates := by
  fun_induction branchEnds depth separator markers <;> simp_all
  grind

/-- The separator of a conditional stands before its end. -/
theorem sublist_of_branchEnds {depth : Nat} {separator : Option (Found BranchTurn)}
    {markers : List (Found BranchTurn)} {ends : Option (Found BranchTurn) × Found BranchTurn}
    (h : branchEnds depth separator markers = .ok ends) :
    (ends.1.toList ++ [ends.2]).Sublist (separator.toList ++ markers) := by
  induction markers generalizing depth separator with
  | nil => cases h
  | cons found rest ih =>
    -- what the search passes over is left out of the sublist
    have hskip {depth : Nat} (h : branchEnds depth separator rest = .ok ends) :
        (ends.1.toList ++ [ends.2]).Sublist (separator.toList ++ found :: rest) :=
      (ih h).trans ((List.sublist_cons_self found rest).append_left _)
    simp only [branchEnds] at h
    split at h
    · exact hskip h
    · split at h
      · cases h
      · rename_i hnone
        rw [Option.not_isSome_iff_eq_none.1 hnone]
        exact ih h
    · exact hskip h
    · cases h
      exact (List.singleton_sublist.2 List.mem_cons_self).append_left _
    · exact hskip h

/-! ## Places of the ends of constructs -/

variable {code : List Char} {pos : Nat}

/-- The end of a block is an end marker of its name. -/
theorem markerAt_of_blockEnd? {name : List Char} {close : Found Turn}
    (h : blockEnd? name pos (code.drop pos) = some close) :
    MarkerAt code close.start close.stop (.blockEnd name) ∧ pos ≤ close.start := by
  rw [blockEnd?, blockTurn?_eq_markerAs] at h
  obtain ⟨m, hm, hitem, hpos⟩ := exists_markerAt_of_findAll (mem_of_closing? h)
  rw [item_of_closing? h] at hitem
  have hname : m = .blockEnd name := by cases m <;> simp_all [turnOfBlock]
  exact ⟨hname ▸ hm, hpos⟩

theorem markerAt_of_loopEnd? {close : Found Turn} (h : loopEnd? pos (code.drop pos) = some close) :
    MarkerAt code close.start close.stop .loopEnd ∧ pos ≤ close.start := by
  rw [loopEnd?, loopTurn?_eq_markerAs] at h
  obtain ⟨m, hm, hitem, hpos⟩ := exists_markerAt_of_findAll (mem_of_closing? h)
  rw [item_of_closing? h] at hitem
  have hend : m = .loopEnd := by cases m <;> simp_all [turnOfLoop]
  exact ⟨hend ▸ hm, hpos⟩

/-- The end of a conditional, and what separates its branches before it. -/
theorem markerAt_of_ifEnds {separator : Option (Found BranchTurn)} {close : Found BranchTurn}
    (h : ifEnds pos (code.drop pos) = .ok (separator, close)) :
    (MarkerAt code close.start close.stop .ifEnd ∧ pos ≤ close.start)
      ∧ ∀ found ∈ separator, MarkerAt code found.start found.stop .ifElse ∧ pos ≤ found.start
        ∧ found.stop ≤ close.start := by
  rw [ifEnds, branchTurn?_eq_markerAs] at h
  obtain ⟨hclose, hseparator⟩ := mem_of_branchEnds h
  obtain ⟨hcloses, hseparates⟩ :=
    item_of_branchEnds (fun _ hnone => absurd hnone (Option.not_mem_none _)) h
  constructor
  · obtain ⟨m, hm, hitem, hpos⟩ := exists_markerAt_of_findAll hclose
    rw [hcloses] at hitem
    have hend : m = .ifEnd := by cases m <;> simp_all [turnOfBranch]
    exact ⟨hend ▸ hm, hpos⟩
  · intro found hfound
    have hmem := (hseparator found hfound).resolve_left (Option.not_mem_none _)
    obtain ⟨m, hm, hitem, hpos⟩ := exists_markerAt_of_findAll hmem
    rw [hseparates found hfound] at hitem
    have helse : m = .ifElse := by cases m <;> simp_all [turnOfBranch]
    -- the two are found in this order, and finds do not overlap
    have hsublist := sublist_of_branchEnds h
    have hpairwise := (pairwise_findAll (fits_markerAs turnOfBranch)).sublist hsublist
    rw [Option.mem_def.1 hfound] at hpairwise
    have hbefore := (List.pairwise_cons.1 hpairwise).1 close List.mem_cons_self
    exact ⟨helse ▸ hm, hpos, hbefore⟩

end BlockTemplate
