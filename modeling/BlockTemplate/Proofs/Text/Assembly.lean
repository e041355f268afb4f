import BlockTemplate.Proofs.Outcome
import BlockTemplate.Proofs.Text.Cutting

/-!
# Texts made of the pieces of a text

A text is scanned character by character up to a find, and on from there. A text that is put
together from what each piece gives, where literal pieces give themselves, is made along the scan.

## Key results

- `scan_induction`: induction along the scan
- `assemble_of_findsNothing`, `assemble_of_finds`: one step of it
- `replaceFound_of_findsNothing`, `replaceFound_of_finds`: one step where no piece fails
-/

namespace BlockTemplate

variable {α ε : Type} {recognize : List Char → Option (α × List Char)}

/-! ## The scan of a text -/

theorem cutPiecesFrom_of_finds {before s after : List Char} {item : α}
    (h : Finds recognize s item after) :
    cutPiecesFrom recognize before s =
      literalPiece before ++ .found item :: cutPieces recognize after := by
  obtain ⟨hitem, hlt⟩ := h
  cases s with
  | nil => exact nomatch hlt
  | cons c rest =>
    rw [cutPiecesFrom, hitem]
    exact dif_pos hlt

theorem cutPiecesFrom_of_findsNothing {before rest : List Char} {c : Char}
    (h : FindsNothing recognize (c :: rest)) :
    cutPiecesFrom recognize before (c :: rest) =
      cutPiecesFrom recognize (c :: before) rest := by
  rw [cutPiecesFrom]
  cases hitem : recognize (c :: rest) with
  | none => rfl
  | some found => exact dif_neg fun hlt => h found.1 found.2 ⟨hitem, hlt⟩

/-- Induction along the scan of a text: over the characters at which nothing is found, and over
    the finds. -/
theorem scan_induction (recognize : List Char → Option (α × List Char))
    {motive : List Char → Prop} (nil : motive [])
    (kept : ∀ c rest, FindsNothing recognize (c :: rest) → motive rest → motive (c :: rest))
    (found : ∀ s item after, Finds recognize s item after → motive after → motive s)
    (s : List Char) : motive s := by
  induction hn : s.length using Nat.strongRecOn generalizing s with
  | ind n ih =>
    subst hn
    by_cases hs : FindsNothing recognize s
    · cases s with
      | nil => exact nil
      | cons c rest => exact kept c rest hs (ih _ (Nat.lt_succ_self _) rest rfl)
    · simp only [FindsNothing, not_forall, not_not] at hs
      obtain ⟨item, after, hfinds⟩ := hs
      exact found s item after hfinds (ih _ hfinds.2 after rfl)

/-! ## Pieces put together -/

/-- The texts of pieces, one after the other. -/
def assemble (f : Piece α → Except ε (List Char)) (pieces : List (Piece α)) :
    Except ε (List Char) := do
  let parts ← pieces.mapM f
  return parts.flatten

theorem assemble_cons (f : Piece α → Except ε (List Char)) (piece : Piece α)
    (pieces : List (Piece α)) :
    assemble f (piece :: pieces) =
      f piece >>= fun first => (assemble f pieces).map (first ++ ·) := by
  rw [assemble, List.mapM_cons]
  cases f piece with
  | error e => rfl
  | ok first =>
    rw [ok_bind, assemble]
    cases pieces.mapM f <;> rfl

theorem assemble_literalPiece {f : Piece α → Except ε (List Char)}
    (hliteral : ∀ chars, f (.literal chars) = .ok chars) (before : List Char)
    (pieces : List (Piece α)) :
    assemble f (literalPiece before ++ pieces) =
      (assemble f pieces).map (before.reverse ++ ·) := by
  cases before with
  | nil =>
    rw [literalPiece, List.isEmpty_nil, if_pos rfl, List.nil_append]
    cases assemble f pieces <;> rfl
  | cons c before =>
    rw [literalPiece, List.isEmpty_cons, if_neg Bool.false_ne_true, List.singleton_append,
      assemble_cons, hliteral, ok_bind]

/-- The literal characters before a text stand before what its pieces give. -/
theorem assemble_cutPiecesFrom {f : Piece α → Except ε (List Char)}
    (hliteral : ∀ chars, f (.literal chars) = .ok chars) (before s : List Char) :
    assemble f (cutPiecesFrom recognize before s) =
      (assemble f (cutPieces recognize s)).map (before.reverse ++ ·) := by
  induction s using scan_induction recognize generalizing before with
  | nil =>
    rw [cutPieces, cutPiecesFrom, cutPiecesFrom, ← List.append_nil (literalPiece before),
      assemble_literalPiece hliteral]
    rfl
  | kept c rest hnothing ih =>
    rw [cutPieces, cutPiecesFrom_of_findsNothing hnothing, cutPiecesFrom_of_findsNothing hnothing,
      ih (c :: before), ih [c]]
    cases assemble f (cutPieces recognize rest) with
    | error e => rfl
    | ok out => simp [Except.map]
  | found s item after hfinds _ =>
    rw [cutPieces, cutPiecesFrom_of_finds hfinds, cutPiecesFrom_of_finds hfinds,
      assemble_literalPiece hliteral]
    rfl

theorem assemble_of_findsNothing {f : Piece α → Except ε (List Char)}
    (hliteral : ∀ chars, f (.literal chars) = .ok chars) {c : Char} {rest : List Char}
    (h : FindsNothing recognize (c :: rest)) :
    assemble f (cutPieces recognize (c :: rest)) =
      (assemble f (cutPieces recognize rest)).map (c :: ·) := by
  rw [cutPieces, cutPiecesFrom_of_findsNothing h, assemble_cutPiecesFrom hliteral]
  rfl

theorem assemble_of_finds {f : Piece α → Except ε (List Char)} {s after : List Char} {item : α}
    (h : Finds recognize s item after) :
    assemble f (cutPieces recognize s) =
      f (.found item) >>= fun first =>
        (assemble f (cutPieces recognize after)).map (first ++ ·) := by
  rw [cutPieces, cutPiecesFrom_of_finds h]
  exact assemble_cons f _ _

/-! ## Finds that are replaced -/

theorem assemble_ok (f : Piece α → List Char) (pieces : List (Piece α)) :
    (assemble (fun piece => .ok (f piece)) pieces : Except ε (List Char))
      = .ok (pieces.flatMap f) := by
  induction pieces with
  | nil => rfl
  | cons piece pieces ih =>
    rw [assemble_cons, ok_bind, ih, List.flatMap_cons]
    rfl

/-- The literal characters before a text stand before what its pieces become. -/
theorem flatMap_cutPiecesFrom_eq {f : Piece α → List Char}
    (hliteral : ∀ chars, f (.literal chars) = chars) (before s : List Char) :
    (cutPiecesFrom recognize before s).flatMap f
      = before.reverse ++ (cutPieces recognize s).flatMap f := by
  have h : (assemble (fun piece => .ok (f piece)) (cutPiecesFrom recognize before s)
      : Except Unit (List Char)) = _ :=
    assemble_cutPiecesFrom (fun chars => congrArg Except.ok (hliteral chars)) before s
  rw [assemble_ok, assemble_ok] at h
  exact Except.ok.inj h

@[simp] theorem replaceFound_nil (render : α → List Char) :
    replaceFound recognize render [] = [] := by
  rw [replaceFound, cutPieces, cutPiecesFrom]
  rfl

/-- A character at which nothing is found is kept. -/
theorem replaceFound_of_findsNothing (render : α → List Char) {c : Char} {rest : List Char}
    (h : FindsNothing recognize (c :: rest)) :
    replaceFound recognize render (c :: rest) = c :: replaceFound recognize render rest := by
  rw [replaceFound, cutPieces, cutPiecesFrom_of_findsNothing h,
    flatMap_cutPiecesFrom_eq fun _ => rfl]
  rfl

/-- A find is replaced, and the text behind it is gone on with. -/
theorem replaceFound_of_finds (render : α → List Char) {s after : List Char} {item : α}
    (h : Finds recognize s item after) :
    replaceFound recognize render s = render item ++ replaceFound recognize render after := by
  rw [replaceFound, cutPieces, cutPiecesFrom_of_finds h]
  rfl

end BlockTemplate
