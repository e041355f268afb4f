import BlockTemplate.Json.Reader
import BlockTemplate.Proofs.Number.Characters

/-!
# Texts in JSON are read back

A text is read back character by character up to its closing quote: a plain character as it stands,
an escaped one by its letter or by its digits.

## Key results

- `readText_escapeChar`: a character is read back
- `readText_flatMap_escapeChar`: a text is read back
- `mem_writeText_iff`: which characters a text is written with
-/

namespace BlockTemplate.Json

/-! ## Escapes -/

theorem readText_quote (rest : List Char) : readText ('"' :: rest) = some ([], rest) := by
  rw [readText]

/-- Put a character in front of a text that has been read. -/
def consRead (c : Char) (hit : List Char × List Char) : List Char × List Char :=
  (c :: hit.1, hit.2)

theorem readText_shortEscape {c char : Char} (h : shortEscape? c = some char) (rest : List Char) :
    readText ('\\' :: c :: rest) = (readText rest).map (consRead char) := by
  -- no short escape is the letter that announces four digits
  have hu : c ≠ 'u' := by
    rintro rfl
    exact nomatch h
  rw [readText]
  · rw [h]
    cases readText rest <;> rfl
  · exact fun _ _ _ _ _ _ _ _ _ hc => absurd hc hu
  · exact fun _ _ _ _ _ hc => absurd hc hu

/-- An escaped code below the surrogates is a character of its own, whatever follows it. -/
theorem readText_longEscape {a b c d : Char} {code : Nat} (h : hexCode? a b c d = some code)
    (hcode : code < 0xD800) (rest : List Char) :
    readText ('\\' :: 'u' :: a :: b :: c :: d :: rest)
      = (readText rest).map (consRead (Char.ofNat code)) := by
  -- another escaped code may follow, and the reader looks at it before it gives up on a pair
  by_cases hpair : ∃ e f g h more, rest = '\\' :: 'u' :: e :: f :: g :: h :: more
  · obtain ⟨e, f, g, i, more, rfl⟩ := hpair
    rw [readText, h]
    cases hlow : hexCode? e f g i with
    | none =>
      -- what follows has no value either way
      have hnone : readText ('\\' :: 'u' :: e :: f :: g :: i :: more) = none := by
        by_cases hmore : ∃ e f g h after, more = '\\' :: 'u' :: e :: f :: g :: h :: after
        · obtain ⟨_, _, _, _, _, rfl⟩ := hmore
          rw [readText, hlow]
          rfl
        · rw [readText, hlow]
          · rfl
          · exact fun _ _ _ _ _ hmatch => hmore ⟨_, _, _, _, _, hmatch⟩
      rw [hnone]
      rfl
    | some low =>
      -- the first code is no half, so that the two are no pair
      have hhalves : (0xD800 ≤ code && code < 0xDC00 && 0xDC00 ≤ low && low < 0xE000) = false := by
        have hfirst : decide (0xD800 ≤ code) = false := decide_eq_false (by omega)
        rw [hfirst]
        rfl
      simp only [Option.bind_eq_bind, Option.bind_some, hhalves, Bool.false_eq_true, if_false]
      cases readText ('\\' :: 'u' :: e :: f :: g :: i :: more) <;> rfl
  · rw [readText, h]
    · cases readText rest <;> rfl
    · exact fun _ _ _ _ _ hmatch => hpair ⟨_, _, _, _, _, hmatch⟩

theorem readText_plain {c : Char} (hquote : c ≠ '"') (hbackslash : c ≠ '\\')
    (hcontrol : ¬c.toNat < 0x20) (rest : List Char) :
    readText (c :: rest) = (readText rest).map (consRead c) := by
  rw [readText]
  · rw [if_neg hcontrol]
    cases readText rest <;> rfl
  · exact hquote
  all_goals
    intros
    exact absurd ‹c = '\\'› hbackslash

/-- The value of four digits, if there are four. -/
def digitsCode? : List Char → Option Nat
  | [a, b, c, d] => hexCode? a b c d
  | _ => none

theorem digitsCode?_escapeDigits : ∀ code < 0x20, digitsCode? (escapeDigits code) = some code := by
  decide

/-- A control character is escaped by four digits. -/
theorem exists_escapeDigits {code : Nat} (h : code < 0x20) :
    ∃ a b c d, escapeDigits code = [a, b, c, d] ∧ hexCode? a b c d = some code := by
  have hcode := digitsCode?_escapeDigits code h
  unfold digitsCode? at hcode
  split at hcode
  · rename_i a b c d hdigits
    exact ⟨a, b, c, d, hdigits, hcode⟩
  · exact nomatch hcode

/-- Whether a character is part of the notation: of numbers, words and brackets, of what stands
    between items, and of quotes and escapes. -/
def isNotation (c : Char) : Bool :=
  isNumberChar c || c == '"' || c == '\\' || c == '[' || c == ']' || c == '{' || c == '}'
    || c == ',' || c == ':' || c == ' '

/-- A character is escaped by a letter or by its digits, or stands as it is. -/
theorem escapeChar_cases (c : Char) :
    (∃ letter, escapeChar c = ['\\', letter] ∧ shortEscape? letter = some c ∧ isNotation letter)
      ∨ (c.toNat < 0x20 ∧ escapeChar c = '\\' :: 'u' :: escapeDigits c.toNat)
      ∨ (c ≠ '"' ∧ c ≠ '\\' ∧ ¬c.toNat < 0x20 ∧ escapeChar c = [c]) := by
  -- the characters with a letter of their own come first
  by_cases hquote : c = '"'
  · exact .inl ⟨'"', by rw [hquote]; rfl, by rw [hquote]; rfl, rfl⟩
  by_cases hbackslash : c = '\\'
  · exact .inl ⟨'\\', by rw [hbackslash]; rfl, by rw [hbackslash]; rfl, rfl⟩
  by_cases hline : c = '\n'
  · exact .inl ⟨'n', by rw [hline]; rfl, by rw [hline]; rfl, rfl⟩
  by_cases hreturn : c = '\r'
  · exact .inl ⟨'r', by rw [hreturn]; rfl, by rw [hreturn]; rfl, rfl⟩
  by_cases htab : c = '\t'
  · exact .inl ⟨'t', by rw [htab]; rfl, by rw [htab]; rfl, rfl⟩
  by_cases hback : c = '\x08'
  · exact .inl ⟨'b', by rw [hback]; rfl, by rw [hback]; rfl, rfl⟩
  by_cases hfeed : c = '\x0c'
  · exact .inl ⟨'f', by rw [hfeed]; rfl, by rw [hfeed]; rfl, rfl⟩
  rw [escapeChar, if_neg hquote, if_neg hbackslash, if_neg hline, if_neg hreturn, if_neg htab,
    if_neg hback, if_neg hfeed]
  -- of the others the control characters are escaped by their code
  by_cases hcontrol : c.toNat < 0x20
  · exact .inr (.inl ⟨hcontrol, if_pos hcontrol⟩)
  · exact .inr (.inr ⟨hquote, hbackslash, hcontrol, if_neg hcontrol⟩)

/-- An escaped character is read back. -/
theorem readText_escapeChar (c : Char) (rest : List Char) :
    readText (escapeChar c ++ rest) = (readText rest).map (consRead c) := by
  obtain ⟨letter, hescape, hletter, -⟩ | ⟨hcontrol, hescape⟩
    | ⟨hquote, hbackslash, hcontrol, hescape⟩ := escapeChar_cases c
  · rw [hescape]
    exact readText_shortEscape hletter rest
  · obtain ⟨x, y, z, w, hdigits, hcode⟩ := exists_escapeDigits hcontrol
    have hread := readText_longEscape hcode (by omega) rest
    have hback : Char.ofNat c.toNat = c := Char.ofNat_toNat c
    rw [hback] at hread
    rw [hescape, hdigits]
    exact hread
  · rw [hescape]
    exact readText_plain hquote hbackslash hcontrol rest

/-! ## Texts -/

/-- A written text is read up to its closing quote. -/
theorem readText_flatMap_escapeChar (cs rest : List Char) :
    readText (cs.flatMap escapeChar ++ '"' :: rest) = some (cs, rest) := by
  induction cs with
  | nil => exact readText_quote rest
  | cons c cs ih =>
    rw [List.flatMap_cons, List.append_assoc, readText_escapeChar, ih]
    rfl

/-! ## Characters -/

theorem isNotation_of_isNumberChar {c : Char} (h : isNumberChar c) : isNotation c := by
  rw [isNotation, h]
  rfl

theorem all_isNotation_escapeDigits : ∀ code < 0x20, (escapeDigits code).all isNotation := by
  decide

section
variable {c : Char} (hc : isNotation c = false)
include hc

theorem not_mem_of_forall_isNotation {s : List Char} (h : ∀ c ∈ s, isNotation c) : c ∉ s :=
  fun hmem => Bool.eq_false_iff.1 hc (h c hmem)

/-- A character outside the notation is written only where it stands for itself. -/
theorem mem_escapeChar_iff (d : Char) : c ∈ escapeChar d ↔ d = c ∧ escapeChar c = [c] := by
  obtain ⟨letter, hescape, -, hletter⟩ | ⟨hcontrol, hescape⟩ | ⟨-, -, -, hescape⟩ :=
    escapeChar_cases d
  · have hnot : c ∉ ['\\', letter] := not_mem_of_forall_isNotation hc
      (List.forall_mem_cons.2 ⟨rfl, List.forall_mem_singleton.2 hletter⟩)
    refine iff_of_false (hescape ▸ hnot) ?_
    rintro ⟨rfl, hplain⟩
    exact nomatch hescape.symm.trans hplain
  · have hnot : c ∉ '\\' :: 'u' :: escapeDigits d.toNat := not_mem_of_forall_isNotation hc
      (List.forall_mem_cons.2 ⟨rfl, List.forall_mem_cons.2
        ⟨rfl, List.all_eq_true.1 (all_isNotation_escapeDigits _ hcontrol)⟩⟩)
    refine iff_of_false (hescape ▸ hnot) ?_
    rintro ⟨rfl, hplain⟩
    exact nomatch hescape.symm.trans hplain
  · rw [hescape, List.mem_singleton]
    refine ⟨?_, fun h => h.1.symm⟩
    rintro rfl
    exact ⟨rfl, hescape⟩

theorem mem_writeText_iff (s : String) :
    c ∈ writeText s ↔ c ∈ s.toList ∧ escapeChar c = [c] := by
  have hquote : c ≠ '"' := by
    rintro rfl
    exact nomatch hc
  simp only [writeText, List.cons_append, List.mem_cons, List.mem_append, hquote, false_or,
    List.not_mem_nil, or_false, List.mem_flatMap, mem_escapeChar_iff hc]
  exact ⟨fun ⟨d, hd, heq, hplain⟩ => ⟨heq ▸ hd, hplain⟩, fun ⟨h, hplain⟩ => ⟨c, h, rfl, hplain⟩⟩

end

end BlockTemplate.Json
