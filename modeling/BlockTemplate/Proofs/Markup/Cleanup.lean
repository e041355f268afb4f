import Mathlib
import BlockTemplate.Proofs.Markup.Respacing
import BlockTemplate.Proofs.Text.Scanning

/-!
# What cleaning up changes

Each pass of the cleanup goes through the text once, and changes nothing but gaps: it shortens runs
of blanks and replaces blanks with spaces, but it keeps single spaces, and a gap between two
characters stays a gap unless it starts behind a closing bracket.

## Key results

- `respaced_cleanupHtml`: a cleaned text is a respaced version of the text
-/

namespace BlockTemplate

/-- Two texts are respaced versions of each other behind any gap that stays one. -/
structure Continues (s s' : List Char) : Prop where
  behind : ∀ {previous : Option Char} {g g' : List Char}, IsGap g → IsGap g' →
    (previous = none ∨ KeepsGap g g') → Respaced looseRule none previous (g ++ s) (g' ++ s')

/-- Two texts are respaced versions of each other behind any gap that stays one and of which
    something is left already. -/
structure ContinuesInGap (s s' : List Char) : Prop where
  behind : ∀ {previous : Option Char} {g g' : List Char}, IsGap g → IsGap g' →
    (previous = none ∨ KeepsGap g g') → g' ≠ [] →
    Respaced looseRule none previous (g ++ s) (g' ++ s')

/-! ## Gaps -/

/-- What is dropped is not all that is left of the gap. -/
theorem KeepsGap.drop {g g' : List Char} (h : KeepsGap g g') (hne : g' ≠ []) (c : Char) :
    KeepsGap (g ++ [c]) g' := by
  have hg : g ≠ [] := fun heq => hne (h.eq_nil_iff.1 heq)
  refine .inr ⟨by simp, by simp [List.append_eq_singleton_iff, hg], hne, fun d hd => ?_⟩
  exact List.cons_subset_cons _ (List.subset_append_left g [c]) (h.subset hd)

theorem keepsGap_space (c : Char) : KeepsGap [c] [' '] := by
  by_cases hc : c = ' '
  · rw [hc]
    exact .refl _
  · exact .inr ⟨by simp, by simpa using hc, by simp, by simp⟩

/-- Margins around a line break are dropped. -/
theorem keepsGap_lineBreak (before after : List Char) :
    KeepsGap (before ++ '\n' :: after) ['\n'] := by
  refine .inr ⟨by simp, ?_, by simp, by simp⟩
  simp [List.append_eq_singleton_iff]

/-- Breaks become one space. -/
theorem keepsGap_breaks {g : List Char} (hne : g ≠ []) (hg : ∀ c ∈ g, isBreak c) :
    KeepsGap g [' '] := by
  refine .inr ⟨hne, ?_, by simp, by simp⟩
  rintro rfl
  exact absurd (hg ' ' List.mem_cons_self) (by decide)

/-! ## Continuing a text -/

theorem Continues.respaced {s s' : List Char} (h : Continues s s') :
    Respaced looseRule none none s s' :=
  h.behind isGap_nil isGap_nil (.inl rfl)

theorem Continues.of_isGap {s s' : List Char} (hs : IsGap s) (hs' : IsGap s') : Continues s s' :=
  ⟨fun hg hg' _ => .last (isGap_append.2 ⟨hg, hs⟩) (isGap_append.2 ⟨hg', hs'⟩) (.inr (.inl rfl))⟩

theorem Continues.respace {g g' s s' : List Char} (hg : IsGap g) (hg' : IsGap g')
    (hkeeps : KeepsGap g g') (h : Continues s s') : Continues (g ++ s) (g' ++ s') := by
  refine ⟨fun hfront hfront' hpending => ?_⟩
  rw [← List.append_assoc, ← List.append_assoc]
  refine h.behind (isGap_append.2 ⟨hfront, hg⟩) (isGap_append.2 ⟨hfront', hg'⟩) ?_
  exact hpending.imp_right fun hkept => hkept.append hkeeps

theorem Continues.cons {s s' : List Char} (c : Char) (h : Continues s s') :
    Continues (c :: s) (c :: s') := by
  cases hc : isSpacing c with
  | true =>
    have hgap : IsGap [c] := isGap_cons.2 ⟨hc, isGap_nil⟩
    exact h.respace hgap hgap (.refl _)
  | false =>
    refine ⟨fun hg hg' hpending => .cons hg hg' hc ?_ ?_⟩
    · exact hpending.imp_right fun hkept => .inr (.inl hkept)
    · exact h.behind isGap_nil isGap_nil (.inr (.refl []))

theorem Continues.append {s s' : List Char} (w : List Char) (h : Continues s s') :
    Continues (w ++ s) (w ++ s') := by
  induction w with
  | nil => exact h
  | cons c w ih => exact ih.cons c

theorem Continues.inGap {s s' : List Char} (h : Continues s s') : ContinuesInGap s s' :=
  ⟨fun hg hg' hpending _ => h.behind hg hg' hpending⟩

theorem ContinuesInGap.drop {s s' : List Char} {c : Char} (hc : isSpacing c)
    (h : ContinuesInGap s s') : ContinuesInGap (c :: s) s' := by
  refine ⟨fun hg hg' hpending hne => ?_⟩
  rw [List.append_cons]
  refine h.behind (isGap_append.2 ⟨hg, isGap_cons.2 ⟨hc, isGap_nil⟩⟩) hg' ?_ hne
  exact hpending.imp_right fun hkept => hkept.drop hne c

theorem ContinuesInGap.space {s s' : List Char} {c : Char} (hc : isSpacing c)
    (h : ContinuesInGap s s') : Continues (c :: s) (' ' :: s') := by
  refine ⟨fun {_ g g'} hg hg' hpending => ?_⟩
  rw [List.append_cons g, List.append_cons g']
  have hgap : IsGap [c] := isGap_cons.2 ⟨hc, isGap_nil⟩
  have hspace : IsGap [' '] := isGap_cons.2 ⟨by decide, isGap_nil⟩
  refine h.behind (isGap_append.2 ⟨hg, hgap⟩) (isGap_append.2 ⟨hg', hspace⟩) ?_ (by simp)
  exact hpending.imp_right fun hkept => hkept.append (keepsGap_space c)

/-! ## Runs of blanks -/

/-- One space in the place of each run. -/
theorem continues_collapseRuns {p : Char → Bool} (hp : ∀ c, p c → isSpacing c) (s : List Char)
    {t t' : List Char} (h : Continues t t') :
    Continues (s ++ t) (collapseRuns p false s ++ t')
      ∧ ContinuesInGap (s ++ t) (collapseRuns p true s ++ t') := by
  induction s with
  | nil => exact ⟨h, h.inGap⟩
  | cons c s ih =>
    obtain ⟨ihOut, ihIn⟩ := ih
    by_cases hc : p c
    · simp only [collapseRuns, hc, if_true, Bool.false_eq_true, if_false]
      exact ⟨ihIn.space (hp c hc), ihIn.drop (hp c hc)⟩
    · simp only [collapseRuns, hc, Bool.false_eq_true, if_false]
      exact ⟨ihOut.cons c, (ihOut.cons c).inGap⟩

theorem respaced_collapseRuns {p : Char → Bool} (hp : ∀ c, p c → isSpacing c) (s : List Char) :
    Respaced looseRule none none s (collapseRuns p false s) := by
  have h := (continues_collapseRuns hp s (.of_isGap isGap_nil isGap_nil)).1.respaced
  rwa [List.append_nil, List.append_nil] at h

/-! ## Lines -/

/-- Trimmed lines behind a line break. -/
theorem continues_lines (before : List Char) (hbefore : ∀ c ∈ before, isMargin c)
    {lines : List (List Char)} (hne : lines ≠ []) :
    Continues (before ++ '\n' :: joinWith ['\n'] lines)
      (['\n'] ++ joinWith ['\n'] (lines.map (trimBoth isMargin))) := by
  induction lines generalizing before with
  | nil => exact absurd rfl hne
  | cons line lines ih =>
    obtain ⟨trail, hline, htrail⟩ := exists_eq_append_trimBoth (p := isMargin) line
    have hlead : ∀ c ∈ line.takeWhile isMargin, isMargin c :=
      List.all_eq_true.1 List.all_takeWhile
    have hbreak : IsGap ['\n'] := isGap_cons.2 ⟨by decide, isGap_nil⟩
    have hgap : IsGap (before ++ '\n' :: line.takeWhile isMargin) :=
      isGap_append.2 ⟨fun c hc => isSpacing_of_isMargin (hbefore c hc),
        isGap_cons.2 ⟨by decide, fun c hc => isSpacing_of_isMargin (hlead c hc)⟩⟩
    have hkeeps := keepsGap_lineBreak before (line.takeWhile isMargin)
    -- the blanks at the end of the line belong to the gap in front of the next one
    cases lines with
    | nil =>
      have hend : Continues trail [] :=
        .of_isGap (fun c hc => isSpacing_of_isMargin (htrail c hc)) isGap_nil
      have h := (hend.append (trimBoth isMargin line)).respace hgap hbreak hkeeps
      rw [List.append_assoc, List.cons_append, ← hline, List.append_nil] at h
      exact h
    | cons second others =>
      have h := ((ih trail htrail (List.cons_ne_nil _ _)).append (trimBoth isMargin line)).respace
        hgap hbreak hkeeps
      rw [List.append_assoc, List.cons_append, ← List.append_assoc (trimBoth isMargin line),
        ← List.append_assoc (line.takeWhile isMargin), ← hline] at h
      simpa [joinWith_cons_cons] using h

theorem respaced_trimLines (s : List Char) : Respaced looseRule none none s (trimLines s) := by
  -- the first line is like all others if there is a line break before it, too
  have h := continues_lines [] (List.forall_mem_nil _) (splitAtChar_ne_nil '\n' s)
  rw [joinWith_splitAtChar] at h
  have hcount : solidCount (('\n' :: s).take 1) = solidCount (('\n' :: trimLines s).take 1) := rfl
  exact h.respaced.drop hcount

/-! ## Brackets -/

theorem collapseBeforeTag_breaks {g : List Char} (hne : g ≠ []) (hg : ∀ c ∈ g, isBreak c)
    (s : List Char) : collapseBeforeTag (g ++ '<' :: s) = ' ' :: '<' :: collapseBeforeTag s := by
  induction g with
  | nil => exact absurd rfl hne
  | cons c g ih =>
    obtain ⟨hc, hg⟩ := List.forall_mem_cons.1 hg
    have hhead : (g ++ '<' :: s).dropWhile isBreak = '<' :: s := by
      rw [List.dropWhile_append_of_pos hg]
      rfl
    have hbracket : collapseBeforeTag ('<' :: s) = '<' :: collapseBeforeTag s := by
      simp [collapseBeforeTag, isBreak]
    rw [List.cons_append, collapseBeforeTag, hhead, hc]
    cases g with
    | nil => simpa using hbracket
    | cons d g =>
      have hd : d ≠ '<' := by
        rintro rfl
        exact absurd (hg '<' List.mem_cons_self) (by decide)
      simpa [hd] using ih (List.cons_ne_nil _ _) hg

theorem continues_collapseBeforeTag (s : List Char) : Continues s (collapseBeforeTag s) := by
  match s with
  | [] => exact .of_isGap isGap_nil isGap_nil
  | c :: rest =>
    by_cases hc : isBreak c && (rest.dropWhile isBreak).head? == some '<'
    · -- a run of breaks up to the bracket
      rw [Bool.and_eq_true, beq_iff_eq] at hc
      obtain ⟨u, hu⟩ : ∃ u, rest.dropWhile isBreak = '<' :: u := by
        cases hrest : rest.dropWhile isBreak with
        | nil => rw [hrest] at hc; cases hc.2
        | cons d u =>
          rw [hrest] at hc
          cases hc.2
          exact ⟨u, rfl⟩
      have hrest : rest = rest.takeWhile isBreak ++ '<' :: u := by
        rw [← hu, List.takeWhile_append_dropWhile]
      have hbreaks : ∀ d ∈ c :: rest.takeWhile isBreak, isBreak d :=
        List.forall_mem_cons.2 ⟨hc.1, List.all_eq_true.1 List.all_takeWhile⟩
      have hne : c :: rest.takeWhile isBreak ≠ [] := List.cons_ne_nil _ _
      have hshort : u.length < rest.length := by
        have hle := length_dropWhile_le isBreak rest
        rwa [hu] at hle
      have hcollapsed := collapseBeforeTag_breaks hne hbreaks u
      rw [List.cons_append, ← hrest] at hcollapsed
      have h := ((continues_collapseBeforeTag u).cons '<').respace
        (fun d hd => isSpacing_of_isBreak (hbreaks d hd)) (isGap_cons.2 ⟨by decide, isGap_nil⟩)
        (keepsGap_breaks hne hbreaks)
      rw [List.cons_append, ← hrest] at h
      rw [hcollapsed]
      exact h
    · rw [collapseBeforeTag, if_neg hc]
      exact (continues_collapseBeforeTag rest).cons c
termination_by s.length

/-- Breaks may be dropped behind a bracket. -/
theorem respaced_breaks_append {g s s' : List Char} {c : Char} (hg : ∀ b ∈ g, isBreak b)
    (hc : isSpacing c = false) (hs : Respaced looseRule none (some c) s s') :
    Respaced looseRule none (some '>') (g ++ c :: s) (c :: s') := by
  have hgap : IsGap g := fun b hb => isSpacing_of_isBreak (hg b hb)
  have hrule : innerRule (some '>') (some c) g [] := by
    cases g with
    | nil => exact .inl (.refl _)
    | cons b g => exact .inr ⟨rfl, rfl, b, List.mem_cons_self, hg b List.mem_cons_self⟩
  show Respaced looseRule none (some '>') (g ++ c :: s) ([] ++ c :: s')
  exact .cons hgap isGap_nil hc (looseRule_of_innerRule hrule) hs

/-- Breaks behind a bracket are dropped; `g` are those that have been. -/
theorem respaced_dropAfterTag (s : List Char) :
    Continues s (dropAfterTag false s) ∧ ∀ g, (∀ c ∈ g, isBreak c) →
      Respaced looseRule none (some '>') (g ++ s) (dropAfterTag true s) := by
  induction s with
  | nil =>
    refine ⟨.of_isGap isGap_nil isGap_nil, fun g hg => ?_⟩
    rw [List.append_nil]
    exact .last (fun c hc => isSpacing_of_isBreak (hg c hc)) isGap_nil (.inr (.inl rfl))
  | cons c s ih =>
    obtain ⟨ihOut, ihAfter⟩ := ih
    -- behind a character that is not in a gap
    have hsolid (hc : isSpacing c = false) :
        Respaced looseRule none (some c) s (dropAfterTag (c == '>') s) := by
      by_cases heq : c = '>'
      · rw [heq]
        exact ihAfter [] (List.forall_mem_nil _)
      · rw [beq_false_of_ne heq]
        exact ihOut.behind isGap_nil isGap_nil (.inr (.refl []))
    refine ⟨?_, fun g hg => ?_⟩
    · rw [dropAfterTag, Bool.false_and, if_neg Bool.false_ne_true]
      cases hc : isSpacing c with
      | true =>
        rw [beq_false_of_ne (ne_of_isSpacing hc (by decide))]
        exact ihOut.cons c
      | false =>
        refine ⟨fun hgap hgap' hpending => .cons hgap hgap' hc ?_ (hsolid hc)⟩
        exact hpending.imp_right fun hkept => .inr (.inl hkept)
    · have hgap : IsGap g := fun d hd => isSpacing_of_isBreak (hg d hd)
      rw [dropAfterTag, Bool.true_and]
      by_cases hbreak : isBreak c
      · rw [if_pos hbreak, List.append_cons]
        exact ihAfter (g ++ [c]) (List.forall_mem_append.2 ⟨hg, by simpa using hbreak⟩)
      · rw [if_neg hbreak]
        cases hc : isSpacing c with
        | true =>
          have hone : IsGap [c] := isGap_cons.2 ⟨hc, isGap_nil⟩
          have hkept : KeepsGap (g ++ [c]) [c] := by
            cases g with
            | nil => exact .refl _
            | cons d g => exact .inr ⟨by simp, by simp, by simp, by simp⟩
          rw [beq_false_of_ne (ne_of_isSpacing hc (by decide)), List.append_cons]
          exact ihOut.behind (isGap_append.2 ⟨hgap, hone⟩) hone (.inr hkept)
        | false => exact respaced_breaks_append hg hc (hsolid hc)

/-! ## HTML tags -/

theorem suffix_of_mem_afterQuotes {quote : Char} {s rest : List Char}
    (h : rest ∈ afterQuotes quote s) : rest <:+ s := by
  induction s with
  | nil => exact absurd h List.not_mem_nil
  | cons c s ih =>
    rw [afterQuotes] at h
    split at h
    · rcases List.mem_cons.1 h with rfl | h
      · exact List.suffix_cons _ _
      · exact (ih h).trans (List.suffix_cons _ _)
    · split at h
      · exact absurd h List.not_mem_nil
      · exact (ih h).trans (List.suffix_cons _ _)

theorem suffix_of_mem_afterAttribute {s rest : List Char} (h : rest ∈ afterAttribute s) :
    rest <:+ s := by
  have hs := List.dropWhile_suffix isBlank (l := s)
  unfold afterAttribute at h
  split at h
  · rename_i afterSign hsign
    have hafter := List.dropWhile_suffix isBlank (l := afterSign)
    -- the value is behind the sign and blanks
    have hvalue {t : List Char} (ht : t <:+ afterSign.dropWhile isBlank) : t <:+ s :=
      ht.trans (hafter.trans ((List.suffix_cons _ _).trans (hsign ▸ hs)))
    split at h
    · rename_i inner hquote
      exact hvalue (hquote ▸ (suffix_of_mem_afterQuotes h).trans (List.suffix_cons _ _))
    · rename_i inner hquote
      exact hvalue (hquote ▸ (suffix_of_mem_afterQuotes h).trans (List.suffix_cons _ _))
    · split at h
      · exact absurd h List.not_mem_nil
      · rw [List.mem_singleton.1 h]
        exact hvalue (List.dropWhile_suffix _)
  · rw [List.mem_singleton.1 h]

theorem suffix_of_mem_afterNamedAttribute {s rest : List Char}
    (h : rest ∈ afterNamedAttribute s) : rest <:+ s := by
  unfold afterNamedAttribute at h
  dsimp only at h
  split at h
  · exact (suffix_of_mem_afterAttribute h).trans (List.dropWhile_suffix _)
  · exact absurd h List.not_mem_nil

theorem suffix_of_afterTagName? {s after : List Char} (h : afterTagName? s = some after) :
    '>' :: after <:+ s := by
  have hs := List.dropWhile_suffix isBlank (l := s)
  rw [afterTagName?] at h
  split at h
  · rename_i rest hend
    cases h
    exact hend ▸ hs
  · rename_i rest hend
    cases h
    exact (List.suffix_cons _ _).trans (hend ▸ hs)
  · split at h
    · obtain ⟨⟨rest, hrest⟩, -, hafter⟩ := List.exists_of_findSome?_eq_some h
      have hlt : rest.length < s.length :=
        Nat.lt_of_lt_of_le (length_lt_of_mem_afterNamedAttribute hrest)
          (length_dropWhile_le isBlank s)
      exact (suffix_of_afterTagName? hafter).trans
        ((suffix_of_mem_afterNamedAttribute hrest).trans hs)
    · cases h
termination_by s.length

/-- A text that starts with a tag is the tag, from one bracket to the other, and what follows
    it. -/
theorem exists_of_htmlTag? {s tag after : List Char} (h : htmlTag? s = some (tag, after)) :
    ∃ inner, tag = '<' :: inner ++ ['>'] ∧ s = tag ++ after := by
  -- the name follows the bracket, or a slash behind it
  have hnamed {s named : List Char} (hsuffix : named <:+ s)
      (h : (if (named.takeWhile isWord).isEmpty then none
        else (afterTagName? (named.dropWhile isWord)).map fun after =>
          (('<' :: s).take (s.length + 1 - after.length), after)) = some (tag, after)) :
      ∃ inner, tag = '<' :: inner ++ ['>'] ∧ '<' :: s = tag ++ after := by
    split at h
    · cases h
    · obtain ⟨rest, hrest, heq⟩ := Option.map_eq_some_iff.1 h
      cases heq
      obtain ⟨inner, rfl⟩ :=
        ((suffix_of_afterTagName? hrest).trans (List.dropWhile_suffix _)).trans hsuffix
      have hsplit : '<' :: (inner ++ '>' :: after) = '<' :: inner ++ ['>'] ++ after := by simp
      have hlength : (inner ++ '>' :: after).length + 1 - after.length
          = ('<' :: inner ++ ['>']).length := by
        simp
        omega
      refine ⟨inner, ?_, ?_⟩
      · rw [hlength, hsplit, List.take_left]
      · rw [hlength, hsplit, List.take_left]
  unfold htmlTag? at h
  split at h
  · dsimp only at h
    split at h
    · exact hnamed (List.suffix_cons _ _) h
    · exact hnamed (List.suffix_refl _) h
  · cases h

theorem continues_cutPiecesFrom {render : Piece (List Char) → List Char}
    (hliteral : ∀ chars, render (.literal chars) = chars)
    (hfound : ∀ tag, render (.found tag) = collapseRuns isBlank false tag)
    (before s : List Char) :
    Continues (before.reverse ++ s) ((cutPiecesFrom htmlTag? before s).flatMap render) := by
  fun_induction cutPiecesFrom htmlTag? before s with
  | case1 before =>
    rw [flatMap_literalPiece render hliteral]
    have h := (Continues.of_isGap isGap_nil isGap_nil).append before.reverse
    rwa [List.append_nil] at h ⊢
  | case2 before c rest tag after htag hlt ih =>
    obtain ⟨_, -, hs⟩ := exists_of_htmlTag? htag
    rw [List.flatMap_append, flatMap_literalPiece render hliteral, List.flatMap_cons, hfound, hs]
    exact (continues_collapseRuns (fun _ hc => isSpacing_of_isBlank hc) tag ih).1.append _
  | case3 before c rest tag after htag hlt ih => simpa using ih
  | case4 before c rest htag ih => simpa using ih

theorem continues_replaceFound (s : List Char) :
    Continues s (replaceFound htmlTag? (collapseRuns isBlank false) s) :=
  continues_cutPiecesFrom (fun _ => rfl) (fun _ => rfl) [] s

/-- A cleaned text is a respaced version of the text. -/
theorem respaced_cleanupHtml (s : List Char) :
    Respaced looseRule none none s (cleanupHtml s) := by
  have hflat (c : Char) (hc : c == '\t' || c == '\x0c') : isSpacing c := by
    simp only [Bool.or_eq_true, beq_iff_eq] at hc
    rcases hc with rfl | rfl <;> decide
  have hspace (c : Char) (hc : c == ' ') : isSpacing c := by
    rw [beq_iff_eq] at hc
    rw [hc]
    decide
  have htrans {s s' s'' : List Char} (h : Respaced looseRule none none s s')
      (h' : Respaced looseRule none none s' s'') : Respaced looseRule none none s s'' :=
    h.trans looseRule_trans h'
  refine htrans (respaced_trimLines s) (htrans (continues_collapseBeforeTag _).respaced ?_)
  refine htrans (respaced_dropAfterTag _).1.respaced ?_
  refine htrans (respaced_collapseRuns hflat _) (htrans (respaced_collapseRuns hspace _) ?_)
  exact (continues_replaceFound _).respaced

end BlockTemplate
