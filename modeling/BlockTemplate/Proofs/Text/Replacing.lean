import BlockTemplate.Proofs.Text.Cutting
import BlockTemplate.Proofs.Text.Pattern

/-!
# Replacing a pattern

A text in which a pattern is replaced is a row of parts: occurrences of the pattern, and the text
between them. What is replaced are the occurrences that the parts name, as long as the pattern
occurs nowhere else, be it within a part or where two parts meet.

## Key results

- `replaceAll_singleton`: replacing a character
- `replaceAll_written`: occurrences are replaced, and all else is kept
- `replaceAll_eq_written_cutAtPattern`: replacing cuts a text at a pattern
- `foundOnly_of_not_mem`: a pattern that cannot occur by accident
-/

namespace BlockTemplate

/-- The text that parts make up, with `pattern` for each occurrence. -/
def written (pattern : List Char) (parts : List (Piece Unit)) : List Char :=
  parts.flatMap fun
    | .literal chars => chars
    | .found () => pattern

/-- Whether the pattern occurs only where the parts name an occurrence: it starts at no character
    between them. -/
def FoundOnly (pattern : List Char) : List (Piece Unit) → Prop
  | [] => True
  | .literal chars :: rest =>
    (∀ i < chars.length, afterPattern? pattern (chars.drop i ++ written pattern rest) = none)
      ∧ FoundOnly pattern rest
  | .found () :: rest => FoundOnly pattern rest

/-- The occurrence of a pattern at the start of a text, and what follows it. -/
def occurrence? (pattern s : List Char) : Option (Unit × List Char) :=
  (afterPattern? pattern s).map fun after => ((), after)

/-- A text cut at the occurrences of a pattern. -/
def cutAtPattern (pattern s : List Char) : List (Piece Unit) := cutPieces (occurrence? pattern) s

section
variable {pattern s : List Char} {parts : List (Piece Unit)} (replacement : List Char)

@[simp] theorem written_literal_cons (chars : List Char) :
    written pattern (.literal chars :: parts) = chars ++ written pattern parts := rfl

@[simp] theorem written_found_cons :
    written pattern (.found () :: parts) = pattern ++ written pattern parts := rfl

theorem written_flatMap {α : Type} (f : α → List (Piece Unit)) (items : List α) :
    written pattern (items.flatMap f) = items.flatMap fun item => written pattern (f item) :=
  List.flatMap_assoc

/-! ## Replacing named occurrences -/

/-- The rest of an occurrence is passed over. -/
theorem replaceFrom_append (skipped rest : List Char) :
    replaceFrom pattern replacement skipped.length (skipped ++ rest)
      = replaceFrom pattern replacement 0 rest := by
  induction skipped with
  | nil => rfl
  | cons c skipped ih => rw [List.length_cons, List.cons_append, replaceFrom, ih]

theorem replaceAll_pattern_append (hne : pattern ≠ []) (rest : List Char) :
    replaceAll pattern replacement (pattern ++ rest)
      = replacement ++ replaceAll pattern replacement rest := by
  obtain ⟨p, more, rfl⟩ := List.exists_cons_of_ne_nil hne
  have hstarts : startsWith (p :: more) (p :: (more ++ rest)) = true := by
    rw [startsWith, ← List.cons_append, afterPattern?_append_self]
    rfl
  rw [replaceAll, List.cons_append, replaceFrom, if_pos hstarts, List.length_cons,
    Nat.add_sub_cancel, replaceFrom_append]
  rfl

theorem replaceAll_append_of_none {chars : List Char} (rest : List Char)
    (h : ∀ i < chars.length, afterPattern? pattern (chars.drop i ++ rest) = none) :
    replaceAll pattern replacement (chars ++ rest)
      = chars ++ replaceAll pattern replacement rest := by
  induction chars with
  | nil => rfl
  | cons c chars ih =>
    have hstarts : startsWith pattern (c :: (chars ++ rest)) = false := by
      have hfirst := h 0 (Nat.succ_pos _)
      rw [List.drop_zero, List.cons_append] at hfirst
      rw [startsWith, hfirst, Option.isSome_none]
    have hrest := ih fun i hi => h (i + 1) (Nat.succ_lt_succ hi)
    rw [List.cons_append, replaceAll, replaceFrom, hstarts, if_neg Bool.false_ne_true, ← replaceAll,
      hrest, List.cons_append]

/-- A character is replaced wherever it stands. -/
theorem replaceAll_singleton (c : Char) (s : List Char) :
    replaceAll [c] replacement s = s.flatMap fun x => if x = c then replacement else [x] := by
  induction s with
  | nil => rfl
  | cons x rest ih =>
    rw [List.flatMap_cons, ← ih]
    split
    · rename_i hx
      rw [hx]
      exact replaceAll_pattern_append _ (List.cons_ne_nil c []) rest
    · rename_i hx
      have hnone : ∀ i < [x].length, afterPattern? [c] ([x].drop i ++ rest) = none := by
        intro i hi
        rw [Nat.lt_one_iff.1 hi, List.drop_zero, List.singleton_append, afterPattern?,
          if_neg (Ne.symm hx)]
      exact replaceAll_append_of_none replacement rest hnone

/-- Where the pattern occurs nowhere else, the named occurrences are replaced, and all else is
    kept. -/
theorem replaceAll_written (hne : pattern ≠ []) (h : FoundOnly pattern parts) :
    replaceAll pattern replacement (written pattern parts) = written replacement parts := by
  induction parts with
  | nil => rfl
  | cons part parts ih =>
    cases part with
    | literal chars =>
      obtain ⟨hchars, hrest⟩ := h
      rw [written_literal_cons, replaceAll_append_of_none _ _ hchars, ih hrest,
        written_literal_cons]
    | found _ =>
      rw [written_found_cons, replaceAll_pattern_append _ hne, ih h, written_found_cons]

/-! ## Cutting a text at a pattern -/

theorem foundOnly_of_cutsInto (hne : pattern ≠ [])
    (h : CutsInto (occurrence? pattern) s parts) :
    FoundOnly pattern parts ∧ written pattern parts = s := by
  induction h with
  | nil => exact ⟨trivial, rfl⟩
  | @found s after item parts hfinds _ ih =>
    obtain ⟨rest, hrest, heq⟩ := Option.map_eq_some_iff.1 hfinds.1
    cases heq
    refine ⟨ih.1, ?_⟩
    rw [written_found_cons, ih.2, eq_append_of_afterPattern? hrest]
  | @literal chars rest parts _ hnothing _ _ ih =>
    refine ⟨⟨fun i hi => ?_, ih.1⟩, by rw [written_literal_cons, ih.2]⟩
    rw [ih.2, Option.eq_none_iff_forall_ne_some]
    intro after hafter
    have hlt : after.length < (chars.drop i ++ rest).length := by
      have hpos := List.length_pos_iff.2 hne
      rw [eq_append_of_afterPattern? hafter, List.length_append]
      omega
    refine hnothing i hi () after ?_
    rw [List.drop_append_of_le_length (Nat.le_of_lt hi)]
    exact ⟨by rw [occurrence?, hafter, Option.map_some], hlt⟩

theorem foundOnly_cutAtPattern (hne : pattern ≠ []) (s : List Char) :
    FoundOnly pattern (cutAtPattern pattern s) :=
  (foundOnly_of_cutsInto hne (cutsInto_cutPieces s)).1

theorem written_cutAtPattern (hne : pattern ≠ []) (s : List Char) :
    written pattern (cutAtPattern pattern s) = s :=
  (foundOnly_of_cutsInto hne (cutsInto_cutPieces s)).2

/-- Replacing cuts a text at the pattern. -/
theorem replaceAll_eq_written_cutAtPattern (hne : pattern ≠ []) (s : List Char) :
    replaceAll pattern replacement s = written replacement (cutAtPattern pattern s) := by
  rw [← replaceAll_written replacement hne (foundOnly_cutAtPattern hne s),
    written_cutAtPattern hne]

/-! ## Patterns that cannot occur by accident -/

/-- A pattern starts nowhere but where parts name it, if its first character is in none of the
    others. -/
theorem foundOnly_of_not_mem {p : Char} (h : ∀ chars, .literal chars ∈ parts → p ∉ chars) :
    FoundOnly (p :: pattern) parts := by
  induction parts with
  | nil => exact trivial
  | cons part parts ih =>
    have hrest := ih fun chars hchars => h chars (List.mem_cons_of_mem _ hchars)
    cases part with
    | found _ => exact hrest
    | literal chars =>
      refine ⟨fun i hi => ?_, hrest⟩
      have hne : p ≠ chars[i] := fun heq =>
        h chars List.mem_cons_self (heq ▸ List.getElem_mem hi)
      rw [List.drop_eq_getElem_cons hi, List.cons_append, afterPattern?, if_neg hne]

theorem mem_written_of_mem {c : Char} {chars : List Char} (hchars : .literal chars ∈ parts)
    (hc : c ∈ chars) : c ∈ written pattern parts :=
  List.mem_flatMap.2 ⟨.literal chars, hchars, hc⟩

theorem mem_replaceAll {c : Char} (hne : pattern ≠ [])
    (h : c ∈ replaceAll pattern replacement s) : c ∈ replacement ∨ c ∈ s := by
  rw [replaceAll_eq_written_cutAtPattern _ hne] at h
  obtain ⟨part, hpart, hc⟩ := List.mem_flatMap.1 h
  cases part with
  | found _ => exact .inl hc
  | literal chars =>
    right
    rw [← written_cutAtPattern hne s]
    exact mem_written_of_mem hpart hc

end

end BlockTemplate
