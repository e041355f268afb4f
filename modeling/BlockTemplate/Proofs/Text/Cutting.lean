import BlockTemplate.Text.Pieces
import Mathlib.Tactic.ByContra

/-!
# Where a text is cut

The pieces of a text are told from all other lists of pieces by what is found where: at each cut
something is found, and nothing is found from there on up to the next one.

## Key results

- `cutsInto_cutPieces`: the pieces of a text are a cut of it
- `CutsInto.eq_cutPieces`: and no other pieces are
-/

namespace BlockTemplate

variable {α : Type} {recognize : List Char → Option (α × List Char)}

/-- Whether an item is found at the start of a text. A find that reads nothing does not count. -/
def Finds (recognize : List Char → Option (α × List Char)) (s : List Char) (item : α)
    (after : List Char) : Prop :=
  recognize s = some (item, after) ∧ after.length < s.length

/-- Whether nothing is found at the start of a text. -/
def FindsNothing (recognize : List Char → Option (α × List Char)) (s : List Char) : Prop :=
  ∀ item after, ¬ Finds recognize s item after

/-- A text and its pieces: finds, and between them literal pieces, in which nothing is found. -/
inductive CutsInto (recognize : List Char → Option (α × List Char)) :
    List Char → List (Piece α) → Prop where
  | nil : CutsInto recognize [] []
  | found {s after : List Char} {item : α} {pieces : List (Piece α)} :
    Finds recognize s item after → CutsInto recognize after pieces →
    CutsInto recognize s (.found item :: pieces)
  | literal {chars rest : List Char} {pieces : List (Piece α)} :
    chars ≠ [] → (∀ i < chars.length, FindsNothing recognize ((chars ++ rest).drop i)) →
    (∀ more, .literal more ∉ pieces.head?) → CutsInto recognize rest pieces →
    CutsInto recognize (chars ++ rest) (.literal chars :: pieces)

/-- The literal characters before a cut are a piece, unless there are none. -/
theorem CutsInto.literalPiece_append {before s : List Char} {pieces : List (Piece α)}
    (hbefore : ∀ i < before.length, FindsNothing recognize ((before.reverse ++ s).drop i))
    (hfound : ∀ more, .literal more ∉ pieces.head?) (h : CutsInto recognize s pieces) :
    CutsInto recognize (before.reverse ++ s) (literalPiece before ++ pieces) := by
  cases before with
  | nil => exact h
  | cons c before =>
    rw [literalPiece, List.isEmpty_cons, if_neg Bool.false_ne_true, List.singleton_append]
    exact .literal (by simp) (by simpa using hbefore) hfound h

theorem findsNothing_cons {before rest : List Char} {c : Char}
    (hbefore : ∀ i < before.length, FindsNothing recognize ((before.reverse ++ c :: rest).drop i))
    (h : FindsNothing recognize (c :: rest)) :
    ∀ i < (c :: before).length,
      FindsNothing recognize (((c :: before).reverse ++ rest).drop i) := by
  intro i hi
  rw [List.reverse_cons, ← List.append_cons]
  rcases Nat.lt_succ_iff_lt_or_eq.1 hi with hi | rfl
  · exact hbefore i hi
  · rwa [← List.length_reverse, List.drop_left]

theorem cutsInto_cutPiecesFrom (before s : List Char)
    (h : ∀ i < before.length, FindsNothing recognize ((before.reverse ++ s).drop i)) :
    CutsInto recognize (before.reverse ++ s) (cutPiecesFrom recognize before s) := by
  fun_induction cutPiecesFrom recognize before s with
  | case1 before =>
    have hcut := CutsInto.nil.literalPiece_append h (by simp)
    rwa [List.append_nil (literalPiece before)] at hcut
  | case2 before c rest item after hitem hlt ih =>
    have hafter : CutsInto recognize after (cutPiecesFrom recognize [] after) := ih (by simp)
    exact (CutsInto.found ⟨hitem, hlt⟩ hafter).literalPiece_append h (by simp)
  | case3 before c rest item after hitem hlt ih =>
    -- a find that reads nothing is passed over like a character at which nothing is found
    have hnothing : FindsNothing recognize (c :: rest) := by
      rintro item' after' ⟨hitem', hlt'⟩
      rw [hitem] at hitem'
      cases hitem'
      exact hlt hlt'
    simpa using ih (findsNothing_cons h hnothing)
  | case4 before c rest hitem ih =>
    have hnothing : FindsNothing recognize (c :: rest) := by
      rintro item' after' ⟨hitem', -⟩
      rw [hitem] at hitem'
      cases hitem'
    simpa using ih (findsNothing_cons h hnothing)

/-- The pieces of a text are a cut of it. -/
theorem cutsInto_cutPieces (s : List Char) : CutsInto recognize s (cutPieces recognize s) :=
  cutsInto_cutPiecesFrom [] s (by simp)

/-- Behind a literal piece there is the end of the text, or a find. -/
theorem CutsInto.finds_of_head {s : List Char} {pieces : List (Piece α)}
    (h : CutsInto recognize s pieces) (hs : s ≠ [])
    (hfound : ∀ more, .literal more ∉ pieces.head?) : ¬ FindsNothing recognize s := by
  cases h with
  | nil => exact absurd rfl hs
  | found hfinds => exact fun hnothing => hnothing _ _ hfinds
  | literal => exact absurd rfl (hfound _)

theorem length_le_of_append_eq {chars rest chars' rest' : List Char} {pieces : List (Piece α)}
    (heq : chars ++ rest = chars' ++ rest')
    (hnothing : ∀ i < chars'.length, FindsNothing recognize ((chars' ++ rest').drop i))
    (hfound : ∀ more, .literal more ∉ pieces.head?) (h : CutsInto recognize rest pieces) :
    chars'.length ≤ chars.length := by
  by_contra hlt
  rw [Nat.not_le] at hlt
  have hrest : rest ≠ [] := by
    rintro rfl
    have hlength := congrArg List.length heq
    simp only [List.length_append, List.length_nil] at hlength
    omega
  have hthere := hnothing chars.length hlt
  rw [← heq, List.drop_left] at hthere
  exact h.finds_of_head hrest hfound hthere

/-- There is only one cut of a text. -/
theorem CutsInto.unique {s : List Char} {pieces others : List (Piece α)}
    (h : CutsInto recognize s pieces) (h' : CutsInto recognize s others) : pieces = others := by
  induction h generalizing others with
  | nil =>
    generalize hs : [] = s at h'
    cases h' with
    | nil => rfl
    | found hfinds =>
      subst hs
      exact nomatch hfinds.2
    | literal hne => exact absurd (List.append_eq_nil_iff.1 hs.symm).1 hne
  | @found s after item pieces hfinds _ ih =>
    cases h' with
    | nil => exact nomatch hfinds.2
    | found hfinds' hcut' =>
      have heq := hfinds.1.symm.trans hfinds'.1
      cases heq
      rw [ih hcut']
    | literal hne hnothing =>
      exact absurd hfinds (hnothing 0 (List.length_pos_iff.2 hne) _ _)
  | @literal chars rest pieces hne hnothing hfound hcut ih =>
    generalize hs : chars ++ rest = s at h'
    cases h' with
    | nil => exact absurd (List.append_eq_nil_iff.1 hs).1 hne
    | found hfinds =>
      have hstart := hnothing 0 (List.length_pos_iff.2 hne)
      rw [List.drop_zero, hs] at hstart
      exact absurd hfinds (hstart _ _)
    | @literal chars' rest' pieces' hne' hnothing' hfound' hcut' =>
      -- something is found behind either piece, so that neither reaches beyond the other
      have hlength := Nat.le_antisymm (length_le_of_append_eq hs.symm hnothing hfound' hcut')
        (length_le_of_append_eq hs hnothing' hfound hcut)
      obtain ⟨rfl, rfl⟩ := List.append_inj hs hlength
      rw [ih hcut']

/-- No other pieces are a cut of a text. -/
theorem CutsInto.eq_cutPieces {s : List Char} {pieces : List (Piece α)}
    (h : CutsInto recognize s pieces) : pieces = cutPieces recognize s :=
  h.unique (cutsInto_cutPieces s)

end BlockTemplate
