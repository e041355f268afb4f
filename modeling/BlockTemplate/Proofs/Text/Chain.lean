import BlockTemplate.Proofs.Text.Open
import BlockTemplate.Proofs.Text.Scanning

/-!
# Where a chain is split

A chain is split at a bar if nothing is open there. Each part is then read as if it stood alone, and
chains that are put together at such a bar are split as they are on their own.

## Key results

- `joinWith_splitChain`: the parts make up the chain
- `isWhole_of_mem_dropLast_splitChain`, `runsOver_of_mem_splitChain`: no part is split again, and
  all but the last leave nothing open
- `splitChain_append_bar`: parts of chains put together
- `splitChain_isExact`: all of this, and the bars at which a chain is split
-/

namespace BlockTemplate

open Nesting

/-- Some of the parts make up a text, and the others, with a bar in between, another one. -/
def SplitsInto (parts : List (List Char)) (before after : List Char) : Prop :=
  ∃ left right, parts = left ++ right ∧ left ≠ [] ∧ right ≠ []
    ∧ joinWith ['|'] left = before ∧ joinWith ['|'] right = after

/-! ## Parts make up the chain -/

theorem splitsAtBar_iff {n : Nesting} {c : Char} : splitsAtBar n c ↔ n = .outside ∧ c = '|' := by
  rw [splitsAtBar, splitsChain, eq_outside_iff]
  simp

theorem splitChainFrom_ne_nil (n : Nesting) (current s : List Char) :
    splitChainFrom n current s ≠ [] := by
  induction s generalizing n current with
  | nil => exact List.cons_ne_nil _ _
  | cons c s ih =>
    rw [splitChainFrom]
    split
    · exact List.cons_ne_nil _ _
    · exact ih _ _

theorem joinWith_splitChainFrom (n : Nesting) (current s : List Char) :
    joinWith ['|'] (splitChainFrom n current s) = current.reverse ++ s := by
  induction s generalizing n current with
  | nil => exact (List.append_nil _).symm
  | cons c s ih =>
    by_cases hc : splitsAtBar n c
    · obtain ⟨part, parts, hparts⟩ := List.exists_cons_of_ne_nil (splitChainFrom_ne_nil n [] s)
      have hrest := ih n []
      rw [splitChainFrom_cons_of_splits hc, hparts, joinWith_cons_cons, ← hparts, hrest,
        (splitsAtBar_iff.1 hc).2, List.reverse_nil, List.nil_append, List.append_assoc,
        List.singleton_append]
    · rw [splitChainFrom_cons (Bool.eq_false_iff.2 hc), ih, List.reverse_cons, List.append_assoc,
        List.singleton_append]

theorem joinWith_splitChain (s : List Char) : joinWith ['|'] (splitChain s) = s :=
  joinWith_splitChainFrom _ _ s

/-! ## Parts on their own -/

/-- The part read so far, given backwards: the scanner does not split in it and stands behind it. -/
structure IsReadSoFar (n : Nesting) (current : List Char) : Prop where
  runsOver : RunsOver splitsAtBar .outside current.reverse
  afterText : Nesting.outside.afterText current.reverse = n

theorem isReadSoFar_nil : IsReadSoFar .outside [] := ⟨trivial, rfl⟩

theorem IsReadSoFar.cons {n : Nesting} {current : List Char} (h : IsReadSoFar n current) {c : Char}
    (hc : splitsAtBar n c = false) : IsReadSoFar (n.after c) (c :: current) where
  runsOver := by
    rw [List.reverse_cons, runsOver_append, h.afterText]
    exact ⟨h.runsOver, runsOver_singleton.2 hc⟩
  afterText := by
    rw [List.reverse_cons, afterText_append, h.afterText]
    rfl

theorem runsOver_of_mem_splitChainFrom {n : Nesting} {current s : List Char}
    (h : IsReadSoFar n current) :
    ∀ part ∈ splitChainFrom n current s, RunsOver splitsAtBar .outside part := by
  induction s generalizing n current with
  | nil =>
    intro part hpart
    rw [List.mem_singleton.1 hpart]
    exact h.runsOver
  | cons c s ih =>
    by_cases hc : splitsAtBar n c
    · obtain ⟨rfl, -⟩ := splitsAtBar_iff.1 hc
      rw [splitChainFrom_cons_of_splits hc, List.forall_mem_cons]
      exact ⟨h.runsOver, ih isReadSoFar_nil⟩
    · rw [splitChainFrom_cons (Bool.eq_false_iff.2 hc)]
      exact ih (h.cons (Bool.eq_false_iff.2 hc))

theorem isWhole_of_mem_dropLast_splitChainFrom {n : Nesting} {current s : List Char}
    (h : IsReadSoFar n current) :
    ∀ part ∈ (splitChainFrom n current s).dropLast, IsWhole splitsAtBar part := by
  induction s generalizing n current with
  | nil => exact fun part hpart => nomatch hpart
  | cons c s ih =>
    by_cases hc : splitsAtBar n c
    · obtain ⟨rfl, -⟩ := splitsAtBar_iff.1 hc
      rw [splitChainFrom_cons_of_splits hc,
        List.dropLast_cons_of_ne_nil (splitChainFrom_ne_nil _ _ _), List.forall_mem_cons]
      exact ⟨⟨h.runsOver, h.afterText⟩, ih isReadSoFar_nil⟩
    · rw [splitChainFrom_cons (Bool.eq_false_iff.2 hc)]
      exact ih (h.cons (Bool.eq_false_iff.2 hc))

/-- The scanner does not split in a part. -/
theorem runsOver_of_mem_splitChain {s part : List Char} (h : part ∈ splitChain s) :
    RunsOver splitsAtBar .outside part :=
  runsOver_of_mem_splitChainFrom isReadSoFar_nil part h

/-- Nothing is open behind a part, unless it is the last. -/
theorem isWhole_of_mem_dropLast_splitChain {s part : List Char}
    (h : part ∈ (splitChain s).dropLast) : IsWhole splitsAtBar part :=
  isWhole_of_mem_dropLast_splitChainFrom isReadSoFar_nil part h

/-- A text in which a scanner does not split is one part. -/
theorem splitChain_eq_singleton {part : List Char} (h : RunsOver splitsAtBar .outside part) :
    splitChain part = [part] := by
  have hsplit : splitChain (part ++ []) = _ := splitChainFrom_append h []
  rw [List.append_nil, List.append_nil] at hsplit
  rw [hsplit, splitChainFrom, List.reverse_reverse]

/-! ## Chains put together -/

theorem afterText_joinWith {parts : List (List Char)} (h : ∀ s ∈ parts, IsWhole splitsAtBar s) :
    Nesting.outside.afterText (joinWith ['|'] parts) = .outside := by
  induction parts with
  | nil => rfl
  | cons s rest ih =>
    rw [List.forall_mem_cons] at h
    obtain ⟨hs, hrest⟩ := h
    cases rest with
    | nil => exact hs.afterText
    | cons t rest =>
      rw [joinWith_cons_cons, List.append_assoc, afterText_append, hs.afterText, afterText_append]
      exact ih hrest

theorem splitChainFrom_append_bar {n : Nesting} (current : List Char) {s : List Char}
    (h : n.afterText s = .outside) (t : List Char) :
    splitChainFrom n current (s ++ '|' :: t) = splitChainFrom n current s ++ splitChain t := by
  induction s generalizing n current with
  | nil =>
    cases h
    exact splitChainFrom_cons_of_splits rfl current t
  | cons c s ih =>
    by_cases hc : splitsAtBar n c
    · obtain ⟨rfl, rfl⟩ := splitsAtBar_iff.1 hc
      rw [List.cons_append, splitChainFrom_cons_of_splits hc, splitChainFrom_cons_of_splits hc,
        ih (n := .outside) [] h]
      rfl
    · rw [List.cons_append, splitChainFrom_cons (Bool.eq_false_iff.2 hc),
        splitChainFrom_cons (Bool.eq_false_iff.2 hc), ih _ h]

theorem splitChain_append_bar {s : List Char} (h : EndsOutside s) (t : List Char) :
    splitChain (s ++ '|' :: t) = splitChain s ++ splitChain t :=
  splitChainFrom_append_bar [] (afterText_eq_outside_iff.2 h) t

/-- The bars at which a chain is split are those behind which nothing is open. -/
theorem splitsInto_splitChain_iff (before after : List Char) :
    SplitsInto (splitChain (before ++ '|' :: after)) before after ↔ EndsOutside before := by
  constructor
  · rintro ⟨left, right, hparts, -, hright, rfl, -⟩
    have hleft : ∀ part ∈ left, IsWhole splitsAtBar part := fun part hpart => by
      apply isWhole_of_mem_dropLast_splitChain
      rw [hparts, List.dropLast_append_of_ne_nil hright]
      exact List.mem_append_left _ hpart
    exact afterText_eq_outside_iff.1 (afterText_joinWith hleft)
  · intro h
    exact ⟨_, _, splitChain_append_bar h after, splitChainFrom_ne_nil _ _ _,
      splitChainFrom_ne_nil _ _ _, joinWith_splitChain before, joinWith_splitChain after⟩

/-- The parts of a chain make it up, each of them is one part on its own, and the chain is split at
    a bar exactly if nothing is open there; then its parts are those of the two texts around the
    bar. -/
theorem splitChain_isExact (s : List Char) :
    joinWith ['|'] (splitChain s) = s
    ∧ (∀ part ∈ splitChain s, splitChain part = [part])
    ∧ ∀ before after, s = before ++ '|' :: after →
        (SplitsInto (splitChain s) before after ↔ EndsOutside before)
        ∧ (EndsOutside before → splitChain s = splitChain before ++ splitChain after) := by
  refine ⟨joinWith_splitChain s, fun part hpart => ?_, ?_⟩
  · exact splitChain_eq_singleton (runsOver_of_mem_splitChain hpart)
  · rintro before after rfl
    exact ⟨splitsInto_splitChain_iff before after, fun h => splitChain_append_bar h after⟩

/-- Bars in quotes, braces and parentheses do not split, and neither does one behind a quote that is
    left open. -/
example : splitChain "\x7da|f('|(', \x7bb|c\x7d)|(d|'|".toList
    = ["\x7da".toList, "f('|(', \x7bb|c\x7d)".toList, "(d|'|".toList] := by decide

end BlockTemplate
