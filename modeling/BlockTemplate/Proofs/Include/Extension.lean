import BlockTemplate.Include
import BlockTemplate.Proofs.Text.Pattern
import Mathlib

/-!
# The extension of templates

A path is that of a template if it ends in `.tpl`, its letters small or capitals. Small forms are
taken in all scripts, but no character outside of ASCII has one with a character of the extension.

## Key results

- `isTemplateName_iff_endsInTpl`
-/

namespace BlockTemplate

/-- Whether a path ends in the extension of templates, in small letters or capitals. -/
def EndsInTpl (name : String) : Prop :=
  ∃ stem extension, name.toList = stem ++ extension ∧
    extension.map Char.toLower = ['.', 't', 'p', 'l']

/-! ## Small forms -/

/-- Whether only ASCII characters have small forms with the character. -/
def IsSmallOfAscii (x : Char) : Prop := ∀ c, x ∈ lowerChar c → c.toNat < 128

/-- Whether a run sends no character outside of ASCII to the character. -/
def missedBy (x : Char) (run : CaseRun) : Bool :=
  let (first, last, _, distance) := run
  (x.toNat : Int) < 128 + distance || (x.toNat : Int) < first + distance
    || (last : Int) + distance < x.toNat

theorem isSmallOfAscii_of_missedBy {x : Char} (hpos : 0 < x.toNat) (hx : x.toNat < 128)
    (hruns : lowerRuns.all (missedBy x) = true)
    (hexpansions : lowerExpansions.all (fun entry => !(entry.2.map Char.ofNat).contains x) = true) :
    IsSmallOfAscii x := by
  intro c hmem
  by_contra hascii
  rw [lowerChar, if_neg hascii, mapCase] at hmem
  -- the character has an expansion of its own, lies in a run, or is its own small letter
  split at hmem
  · rename_i codes hlookup
    obtain ⟨_, _, hexpansion, -⟩ := List.lookup_eq_some_iff.1 hlookup
    have hentry := List.all_eq_true.1 hexpansions (c.toNat, codes) (by simp [hexpansion])
    rw [Bool.not_eq_true', ← Bool.not_eq_true, List.contains_iff_mem] at hentry
    exact hentry hmem
  · dsimp only at hmem
    split at hmem
    · rename_i first last step distance hfind
      have hrun := List.all_eq_true.1 hruns _ (List.mem_of_find?_eq_some hfind)
      have hbounds := List.find?_some hfind
      have heq := congrArg Char.toNat (List.mem_singleton.1 hmem)
      rw [Char.toNat_ofNat] at heq
      simp only [missedBy, Bool.or_eq_true, Bool.and_eq_true, decide_eq_true_eq] at hrun hbounds
      split at heq <;> omega
    · rw [List.mem_singleton.1 hmem] at hx
      exact hascii hx

/-- The characters of the extension are small forms of ASCII characters only. -/
theorem isSmallOfAscii_of_mem_extension {x : Char} (hx : x ∈ ['.', 't', 'p', 'l']) :
    x.toNat < 128 ∧ IsSmallOfAscii x := by
  simp only [List.mem_cons, List.not_mem_nil, or_false] at hx
  rcases hx with rfl | rfl | rfl | rfl <;>
    exact ⟨by decide, isSmallOfAscii_of_missedBy (by decide) (by decide) (by decide +kernel) rfl⟩

theorem toLower_of_not_ascii {c : Char} (h : ¬ c.toNat < 128) : c.toLower = c := by
  rw [Char.toLower, dif_neg]
  rintro ⟨-, hle⟩
  exact h (Nat.lt_of_le_of_lt (UInt32.le_iff_toNat_le.1 hle) (by decide))

theorem lowerAfter_cons_of_ascii {c : Char} (hascii : c.toNat < 128) (before rest : List Char) :
    lowerAfter before (c :: rest) = c.toLower :: lowerAfter (c :: before) rest := by
  have hsigma : c ≠ 'Σ' := by
    rintro rfl
    exact absurd hascii (by decide)
  rw [lowerAfter, if_neg hsigma, lowerChar, if_pos hascii, List.singleton_append]

theorem lowerAfter_of_ascii {s : List Char} (hascii : ∀ c ∈ s, c.toNat < 128)
    (before : List Char) : lowerAfter before s = s.map Char.toLower := by
  induction s generalizing before with
  | nil => rfl
  | cons c rest ih =>
    rw [lowerAfter_cons_of_ascii (hascii c List.mem_cons_self),
      ih fun d hd => hascii d (List.mem_cons_of_mem _ hd)]
    rfl

theorem lowerChar_ne_nil (c : Char) : lowerChar c ≠ [] := by
  have hexpansions : ∀ expansion ∈ lowerExpansions, expansion.2 ≠ [] := by decide
  rw [lowerChar]
  split
  · exact List.cons_ne_nil _ _
  · rw [mapCase]
    split
    · rename_i codes hlookup
      obtain ⟨_, _, hexpansion, -⟩ := List.lookup_eq_some_iff.1 hlookup
      exact mt List.map_eq_nil_iff.1 (hexpansions (c.toNat, codes) (by simp [hexpansion]))
    · dsimp only
      split <;> exact List.cons_ne_nil _ _

/-- What a character adds to the small form of a text. -/
theorem lowerAfter_cons (before rest : List Char) (c : Char) :
    ∃ small, lowerAfter before (c :: rest) = small ++ lowerAfter (c :: before) rest ∧
      small ≠ [] ∧ ∀ x ∈ small, IsSmallOfAscii x → c.toNat < 128 := by
  refine ⟨_, rfl, ?_⟩
  split
  · -- neither small form of the sigma is one of ASCII, as both are small forms of themselves
    have hsigma : ¬ IsSmallOfAscii 'ς' ∧ ¬ IsSmallOfAscii 'σ' :=
      ⟨fun h => absurd (h 'ς' (by decide +kernel)) (by decide),
        fun h => absurd (h 'σ' (by decide +kernel)) (by decide)⟩
    refine ⟨List.cons_ne_nil _ _, fun x hx hsmall => ?_⟩
    rw [List.mem_singleton] at hx
    split at hx
    · exact absurd (hx ▸ hsmall) hsigma.1
    · exact absurd (hx ▸ hsmall) hsigma.2
  · exact ⟨lowerChar_ne_nil c, fun x hx hsmall => hsmall c hx⟩

/-- A text whose small form has nothing but small forms of ASCII is ASCII. -/
theorem ascii_of_lowerAfter {before s : List Char}
    (h : ∀ x ∈ lowerAfter before s, IsSmallOfAscii x) : ∀ c ∈ s, c.toNat < 128 := by
  induction s generalizing before with
  | nil => exact fun c hc => nomatch hc
  | cons c rest ih =>
    obtain ⟨small, heq, hne, hascii⟩ := lowerAfter_cons before rest c
    rw [heq] at h
    obtain ⟨x, hx⟩ := List.exists_mem_of_ne_nil small hne
    refine List.forall_mem_cons.2 ⟨hascii x hx (h x (List.mem_append_left _ hx)), ?_⟩
    exact ih fun x hx => h x (List.mem_append_right _ hx)

/-! ## Ends of small forms -/

/-- What ends the small form of a text, in ASCII, is the small form of what ends the text. -/
theorem exists_of_suffix_lowerAfter {pattern : List Char}
    (hpattern : ∀ x ∈ pattern, IsSmallOfAscii x) {before s : List Char}
    (h : pattern <:+ lowerAfter before s) :
    ∃ stem extension, s = stem ++ extension ∧ extension.map Char.toLower = pattern := by
  induction s generalizing before with
  | nil => exact ⟨[], [], rfl, (List.suffix_nil.1 h).symm⟩
  | cons c rest ih =>
    obtain ⟨small, heq, -, hascii⟩ := lowerAfter_cons before rest c
    obtain ⟨front, hfront⟩ := h
    rw [heq, List.append_eq_append_iff] at hfront
    rcases hfront with ⟨start, hsmall, hpat⟩ | ⟨more, -, hrest⟩
    · -- the pattern begins in the small form of the first character
      subst hpat
      have hrest : ∀ d ∈ rest, d.toNat < 128 :=
        ascii_of_lowerAfter fun x hx => hpattern x (List.mem_append_right _ hx)
      by_cases hstart : start = []
      · rw [hstart, List.nil_append]
        exact ⟨[c], rest, rfl, (lowerAfter_of_ascii hrest _).symm⟩
      · obtain ⟨x, hx⟩ := List.exists_mem_of_ne_nil start hstart
        have hc : c.toNat < 128 :=
          hascii x (hsmall ▸ List.mem_append_right _ hx) (hpattern x (List.mem_append_left _ hx))
        rw [lowerAfter_cons_of_ascii hc] at heq
        have hone : [c.toLower] = small := List.append_cancel_right heq
        rw [hsmall, List.singleton_eq_append_iff] at hone
        have hwhole : start = [c.toLower] := hone.elim (·.2) fun h => absurd h.2 hstart
        rw [hwhole, lowerAfter_of_ascii hrest]
        exact ⟨[], c :: rest, rfl, rfl⟩
    · -- the pattern begins later
      obtain ⟨stem, extension, hs, hlower⟩ := ih ⟨more, hrest.symm⟩
      exact ⟨c :: stem, extension, by rw [hs, List.cons_append], hlower⟩

theorem suffix_lowerAfter_append (stem extension before : List Char) :
    lowerAfter (stem.reverse ++ before) extension <:+ lowerAfter before (stem ++ extension) := by
  induction stem generalizing before with
  | nil => exact List.suffix_refl _
  | cons c stem ih =>
    obtain ⟨small, heq, -⟩ := lowerAfter_cons before (stem ++ extension) c
    rw [List.cons_append, heq, List.reverse_cons, List.append_assoc]
    exact List.suffix_append_of_suffix (ih (c :: before))

theorem endsWith_iff_suffix (pattern s : List Char) :
    endsWith pattern s = true ↔ pattern <:+ s := by
  rw [endsWith, startsWith, Option.isSome_iff_exists, ← List.reverse_prefix]
  constructor
  · rintro ⟨after, h⟩
    exact ⟨after, (eq_append_of_afterPattern? h).symm⟩
  · rintro ⟨after, h⟩
    exact ⟨after, h ▸ afterPattern?_append_self _ _⟩

/-- The paths of templates are those with the extension. -/
theorem isTemplateName_iff_endsInTpl (name : String) :
    isTemplateName name = true ↔ EndsInTpl name := by
  rw [isTemplateName, lowerText, String.toList_ofList, endsWith_iff_suffix]
  constructor
  · exact exists_of_suffix_lowerAfter fun x hx => (isSmallOfAscii_of_mem_extension hx).2
  · rintro ⟨stem, extension, hname, hlower⟩
    have hascii : ∀ c ∈ extension, c.toNat < 128 := by
      intro c hc
      have hmem : c.toLower ∈ ['.', 't', 'p', 'l'] := hlower ▸ List.mem_map_of_mem hc
      by_contra hnot
      rw [toLower_of_not_ascii hnot] at hmem
      exact hnot (isSmallOfAscii_of_mem_extension hmem).1
    rw [hname, ← hlower, ← lowerAfter_of_ascii hascii (stem.reverse ++ [])]
    exact suffix_lowerAfter_append stem extension []

end BlockTemplate
