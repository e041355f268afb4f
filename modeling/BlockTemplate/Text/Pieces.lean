/-!
# Cutting a text into pieces

`cutPieces recognize` cuts a text into what `recognize` finds, from the left and without overlap,
and the literal pieces in between. A recognizer looks at the start of a text and gives what it found
there and the rest.
-/

namespace BlockTemplate

/-- A literal piece of a text, which is never empty, or something found in it. -/
inductive Piece (α : Type) where
  | literal (chars : List Char)
  | found (item : α)
deriving DecidableEq, Repr

variable {α : Type}

/-- The literal read so far, given backwards, as a piece; nothing if it is empty. -/
def literalPiece (before : List Char) : List (Piece α) :=
  if before.isEmpty then [] else [.literal before.reverse]

/-- Cut `s`; `before` holds, backwards, the literal characters since the last find. A find that
    reads nothing does not count. -/
def cutPiecesFrom (recognize : List Char → Option (α × List Char)) (before s : List Char) :
    List (Piece α) :=
  match s with
  | [] => literalPiece before
  | c :: rest =>
    match recognize (c :: rest) with
    | some (item, after) =>
      if _h : after.length < (c :: rest).length then
        literalPiece before ++ .found item :: cutPiecesFrom recognize [] after
      else cutPiecesFrom recognize (c :: before) rest
    | none => cutPiecesFrom recognize (c :: before) rest
termination_by s.length
decreasing_by
  · assumption
  · simp
  · simp

/-- The pieces of a text. -/
def cutPieces (recognize : List Char → Option (α × List Char)) (s : List Char) : List (Piece α) :=
  cutPiecesFrom recognize [] s

/-- The text in which every find is replaced by `render` of it. -/
def replaceFound (recognize : List Char → Option (α × List Char)) (render : α → List Char)
    (s : List Char) : List Char :=
  (cutPieces recognize s).flatMap fun
    | .literal chars => chars
    | .found item => render item

/-- What holds of everything that the recognizer finds in a text not longer than `s` holds of every
    find in the pieces of `s`. -/
theorem forall_found_cutPiecesFrom {recognize : List Char → Option (α × List Char)}
    {P : α → Prop} {bound : Nat}
    (h : ∀ t item after, t.length ≤ bound → recognize t = some (item, after) → P item)
    (before s : List Char) (hs : s.length ≤ bound) {item : α}
    (hmem : .found item ∈ cutPiecesFrom recognize before s) : P item := by
  fun_induction cutPiecesFrom recognize before s with
  | case1 before => unfold literalPiece at hmem; split at hmem <;> simp at hmem
  | case2 before c rest found after hfound hlt ih =>
    rcases List.mem_append.1 hmem with hl | hl
    · unfold literalPiece at hl; split at hl <;> simp at hl
    · rcases List.mem_cons.1 hl with heq | hl
      · cases heq; exact h _ _ _ hs hfound
      · exact ih (by omega) hl
  | case3 before c rest found after hfound hlt ih =>
    exact ih (by simp at hs; omega) hmem
  | case4 before c rest hfound ih => exact ih (by simp at hs; omega) hmem

theorem forall_found_cutPieces {recognize : List Char → Option (α × List Char)}
    {P : α → Prop} {s : List Char}
    (h : ∀ t item after, t.length ≤ s.length → recognize t = some (item, after) → P item)
    {item : α} (hmem : .found item ∈ cutPieces recognize s) : P item :=
  forall_found_cutPiecesFrom h [] s (Nat.le_refl _) hmem

/-! ## Pieces make up the text -/

theorem flatMap_literalPiece (render : Piece α → List Char)
    (hliteral : ∀ chars, render (.literal chars) = chars) (before : List Char) :
    (literalPiece before).flatMap render = before.reverse := by
  cases before with
  | nil => rfl
  | cons c before => simp [literalPiece, hliteral]

theorem flatMap_cutPiecesFrom {recognize : List Char → Option (α × List Char)}
    {render : Piece α → List Char} (hliteral : ∀ chars, render (.literal chars) = chars)
    (hfound : ∀ t item after, recognize t = some (item, after) → t = render (.found item) ++ after)
    (before s : List Char) :
    (cutPiecesFrom recognize before s).flatMap render = before.reverse ++ s := by
  fun_induction cutPiecesFrom recognize before s with
  | case1 before => rw [flatMap_literalPiece render hliteral, List.append_nil]
  | case2 before c rest item after hitem hlt ih =>
    rw [List.flatMap_append, flatMap_literalPiece render hliteral, List.flatMap_cons, ih,
      List.reverse_nil, List.nil_append, ← hfound _ _ _ hitem]
  | case3 before c rest item after hitem hlt ih => simpa using ih
  | case4 before c rest hitem ih => simpa using ih

/-- A text is the pieces that it is cut into, if finds can be put back. -/
theorem flatMap_cutPieces {recognize : List Char → Option (α × List Char)}
    {render : Piece α → List Char} (hliteral : ∀ chars, render (.literal chars) = chars)
    (hfound : ∀ t item after, recognize t = some (item, after) → t = render (.found item) ++ after)
    (s : List Char) : (cutPieces recognize s).flatMap render = s :=
  flatMap_cutPiecesFrom hliteral hfound [] s

end BlockTemplate
