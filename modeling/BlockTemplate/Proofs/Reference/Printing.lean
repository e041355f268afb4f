import BlockTemplate.Proofs.Cache.Names
import BlockTemplate.Proofs.Reference.Chunks
import BlockTemplate.Proofs.Text.Pattern
import BlockTemplate.Proofs.Text.Scanning
import BlockTemplate.Proofs.Value.Numeric
import Mathlib.Data.List.Basic

/-!
# Printed references are parsed back

A reference tree is what a tag can say: a name with keys, and a chain of callbacks whose arguments
are literals, quoted texts and further trees. Its parts carry what makes them printable. It is
printed as `NAME.key|callback|callback(argument, argument)`, with the nested trees in braces, and
parsing the text gives the reference that the tree stands for.

## Key results

- `ReferenceTree.closed_print`: printed trees are closed, whatever their texts hold
- `argumentWords_printArguments`, `splitChain_print`: what is scanned from a printed tree
- `ReferenceTree.parse_print`: parsing undoes printing
-/

namespace BlockTemplate

/-! ## Trees -/

/-- Whether a character can stand in a name or a key: it is no blank, quote mark, bracket or
    separator. -/
def isNameChar (c : Char) : Bool :=
  !isBlank c && !isQuote c && !(['{', '}', '(', ')', '|', '.'].contains c)

/-- A name or a key of a tag. -/
structure TagName where
  chars : List Char
  nonempty : chars ≠ []
  plain : ∀ c ∈ chars, isNameChar c

/-- A name of a callback. -/
structure CallbackName where
  chars : List Char
  nonempty : chars ≠ []
  word : ∀ c ∈ chars, isWord c

/-- An integer that double precision keeps, as all integers up to its bound do. -/
structure ExactInteger where
  value : Int
  bounded : value.natAbs ≤ 2 ^ Binary64.precision

/-- A text with a quote mark that it does not contain. -/
structure QuotedText where
  quote : Char
  chars : List Char
  isQuote : isQuote quote
  absent : quote ∉ chars

mutual

/-- What a tag can say. -/
inductive ReferenceTree where
  | mk (name : TagName) (keys : List TagName) (calls : List CallTree)

/-- A callback of a chain, bare or with arguments. -/
inductive CallTree where
  | bare (name : CallbackName)
  | applied (name : CallbackName) (arguments : List ArgumentTree)

inductive ArgumentTree where
  | null
  | bool (b : Bool)
  | integer (n : ExactInteger)
  | text (t : QuotedText)
  | reference (target : ReferenceTree)

end

/-! ## Printing -/

mutual

/-- The text between the braces of a tag. -/
def ReferenceTree.print : ReferenceTree → List Char
  | .mk name keys calls =>
    joinWith ['|'] (joinWith ['.'] (name.chars :: keys.map TagName.chars) :: printCalls calls)

def printCalls : List CallTree → List (List Char)
  | [] => []
  | call :: rest => call.print :: printCalls rest

def CallTree.print : CallTree → List Char
  | .bare name => name.chars
  | .applied name arguments =>
    name.chars ++ ('(' :: joinWith [',', ' '] (printArguments arguments) ++ [')'])

def printArguments : List ArgumentTree → List (List Char)
  | [] => []
  | argument :: rest => argument.print :: printArguments rest

def ArgumentTree.print : ArgumentTree → List Char
  | .null => "null".toList
  | .bool b => (if b then "true" else "false").toList
  | .integer n => (intText n.value).toList
  | .text t => t.quote :: t.chars ++ [t.quote]
  | .reference target => '{' :: target.print ++ ['}']

end

example : (ReferenceTree.mk ⟨['A'], by decide, List.all_eq_true.1 rfl⟩
    [⟨['k'], by decide, List.all_eq_true.1 rfl⟩]
    [.bare ⟨['f'], by decide, List.all_eq_true.1 rfl⟩,
      .applied ⟨['g'], by decide, List.all_eq_true.1 rfl⟩
      [.reference (.mk ⟨['B'], by decide, List.all_eq_true.1 rfl⟩ [] []),
        .integer ⟨-12, by decide⟩, .text ⟨'"', ['\'', '|', ')'], by decide, by decide⟩]]).print
    = "A.k|f|g(\x7bB\x7d, -12, \"'|)\")".toList := by
  decide

/-! ## The references that trees stand for -/

mutual

/-- The reference that a tree stands for. A text is kept as the pieces that it is made of. -/
def ReferenceTree.toReference : ReferenceTree → Reference
  | .mk name keys calls =>
    .mk (.text (String.ofList (ReferenceTree.mk name keys calls).print))
      (.text (String.ofList name.chars)) (keys.map fun key => .text (String.ofList key.chars))
      (toCalls calls)

def toCalls : List CallTree → List Call
  | [] => []
  | call :: rest => call.toCall :: toCalls rest

def CallTree.toCall : CallTree → Call
  | .bare name =>
    .mk (.text (String.ofList name.chars)) none (.text (String.ofList name.chars))
  | .applied name arguments =>
    .mk (.text (String.ofList name.chars)) (some (toArguments arguments))
      (.text (String.ofList (CallTree.applied name arguments).print))

def toArguments : List ArgumentTree → List Argument
  | [] => []
  | argument :: rest => argument.toArgument :: toArguments rest

def ArgumentTree.toArgument : ArgumentTree → Argument
  | .null => .literal .null
  | .bool b => .literal (.bool b)
  | .integer n => .literal (.number (.int n.value))
  | .text t => .text (embeddedChunks (String.ofList t.chars))
  | .reference target => .reference target.toReference

end

/-! ## What the characters of a tree are -/

/-- A character that opens and closes nothing. -/
def IsInert (c : Char) : Prop := isQuote c = false ∧ c ≠ '{' ∧ c ≠ '}' ∧ c ≠ '(' ∧ c ≠ ')'

instance (c : Char) : Decidable (IsInert c) :=
  inferInstanceAs (Decidable (_ ∧ _ ∧ _ ∧ _ ∧ _))

theorem IsInert.after_eq {c : Char} (h : IsInert c) : Nesting.outside.after c = .outside := by
  simp [Nesting.after, Nesting.outside, h.1, h.2]

theorem closed_of_forall {s : List Char} (h : ∀ c ∈ s, IsInert c) : Closed s := by
  induction s with
  | nil => exact .nil
  | cons c s ih =>
    rw [List.forall_mem_cons] at h
    exact .append (s := [c]) (.plain h.1.1 h.1.2) (ih h.2)

theorem isInert_of_isNameChar {c : Char} (h : isNameChar c) : IsInert c ∧ c ≠ '|' := by
  simp [isNameChar] at h
  simp [IsInert, h]

theorem isInert_of_isWord {c : Char} (h : isWord c) : IsInert c ∧ c ≠ '|' := by
  have hne {d : Char} (hd : isWord d = false) : c ≠ d := by
    rintro rfl
    exact nomatch h.symm.trans hd
  have hquote : isQuote c = false := by
    rw [isQuote, Bool.or_eq_false_iff]
    exact ⟨beq_false_of_ne (hne rfl), beq_false_of_ne (hne rfl)⟩
  exact ⟨⟨hquote, hne rfl, hne rfl, hne rfl, hne rfl⟩, hne rfl⟩

/-- What stands between two arguments. -/
theorem closed_glue : Closed [',', ' '] :=
  .append (s := [',']) (.plain rfl (by decide)) (.plain rfl (by decide))

/-- What has been checked for the characters of a text one by one holds of each of them. -/
theorem forall_mem_of_all {P : Char → Prop} [DecidablePred P] {s : List Char}
    (h : s.all fun c => decide (P c)) : ∀ c ∈ s, P c :=
  fun c hc => of_decide_eq_true (List.all_eq_true.1 h c hc)

/-- The characters that null, the truth values and the integers are written with. -/
def literalChars : List Char := "-0123456789aeflnrstu".toList

theorem mem_literalChars_intText {n : Int} {c : Char} (h : c ∈ (intText n).toList) :
    c ∈ literalChars := by
  have hdigit : ∀ k < 10, Char.ofNat ('0'.toNat + k) ∈ literalChars := by decide
  have hdigits {c : Char} (h : c ∈ Nat.toDigits 10 n.natAbs) : c ∈ literalChars := by
    obtain ⟨k, hk, rfl⟩ := NumericText.exists_of_isNumeral (Json.isNumeral_of_mem_toDigits h)
    exact hdigit k hk
  rw [intText, String.toList_ofList] at h
  split at h
  · rcases List.mem_cons.1 h with rfl | h
    · decide
    · exact hdigits h
  · exact hdigits h

/-- Literals open nothing, are not split, and have no blanks. -/
theorem forall_mem_literalChars : ∀ c ∈ literalChars,
    IsInert c ∧ isArgumentDelimiter c = false ∧ isBlank c = false :=
  forall_mem_of_all (by decide)

theorem mem_literalChars_null : ∀ c ∈ "null".toList, c ∈ literalChars :=
  forall_mem_of_all (by decide)

theorem mem_literalChars_bool (b : Bool) :
    ∀ c ∈ (if b then "true" else "false").toList, c ∈ literalChars := by
  cases b with
  | false => exact forall_mem_of_all (by decide)
  | true => exact forall_mem_of_all (by decide)

theorem closed_of_literalChars {s : List Char} (h : ∀ c ∈ s, c ∈ literalChars) : Closed s :=
  closed_of_forall fun c hc => (forall_mem_literalChars c (h c hc)).1

/-! ## Printed trees are closed -/

mutual

/-- Printed trees are closed, whatever their texts hold. -/
theorem ReferenceTree.closed_print (tree : ReferenceTree) : Closed tree.print := by
  match tree with
  | .mk name keys calls =>
    have hname (name : TagName) : Closed name.chars :=
      closed_of_forall fun c hc => (isInert_of_isNameChar (name.plain c hc)).1
    have hpath : Closed (joinWith ['.'] (name.chars :: keys.map TagName.chars)) := by
      refine closed_joinWith (.plain rfl (by decide)) ?_
      rw [List.forall_mem_cons, List.forall_mem_map]
      exact ⟨hname name, fun key _ => hname key⟩
    rw [ReferenceTree.print]
    refine closed_joinWith (.plain rfl (by decide)) ?_
    rw [List.forall_mem_cons]
    exact ⟨hpath, closed_printCalls calls⟩

theorem closed_printCalls (calls : List CallTree) : ∀ s ∈ printCalls calls, Closed s := by
  match calls with
  | [] => exact fun _ h => nomatch h
  | call :: rest =>
    rw [printCalls, List.forall_mem_cons]
    exact ⟨call.closed_print, closed_printCalls rest⟩

theorem CallTree.closed_print (call : CallTree) : Closed call.print := by
  have hname (name : CallbackName) : Closed name.chars :=
    closed_of_forall fun c hc => (isInert_of_isWord (name.word c hc)).1
  match call with
  | .bare name => exact hname name
  | .applied name arguments =>
    rw [CallTree.print]
    exact .append (hname name)
      (.inParens (closed_joinWith closed_glue (closed_printArguments arguments)))

theorem closed_printArguments (arguments : List ArgumentTree) :
    ∀ s ∈ printArguments arguments, Closed s := by
  match arguments with
  | [] => exact fun _ h => nomatch h
  | argument :: rest =>
    rw [printArguments, List.forall_mem_cons]
    exact ⟨argument.closed_print, closed_printArguments rest⟩

theorem ArgumentTree.closed_print (argument : ArgumentTree) : Closed argument.print := by
  match argument with
  | .null => exact closed_of_literalChars mem_literalChars_null
  | .bool b => exact closed_of_literalChars (mem_literalChars_bool b)
  | .integer n => exact closed_of_literalChars fun c hc => mem_literalChars_intText hc
  | .text t => exact .quoted t.isQuote t.absent
  | .reference target => exact .braced target.closed_print

end

/-! ## Printed trees are scanned as a whole -/

theorem CallbackName.isWhole (name : CallbackName) : IsWhole splitsAtBar name.chars := by
  refine isWhole_of_forall fun c hc => ?_
  obtain ⟨hinert, hbar⟩ := isInert_of_isWord (name.word c hc)
  exact ⟨hinert.after_eq, by rw [splitsAtBar, beq_false_of_ne hbar, Bool.and_false]⟩

/-- No bar in a callback splits the chain that it stands in. -/
theorem CallTree.isWhole_print (call : CallTree) : IsWhole splitsAtBar call.print := by
  cases call with
  | bare name => exact name.isWhole
  | applied name arguments =>
    rw [CallTree.print]
    exact name.isWhole.append
      (isWhole_inParens (closed_joinWith closed_glue (closed_printArguments arguments)))

theorem isWhole_of_literalChars {s : List Char} (h : ∀ c ∈ s, c ∈ literalChars) :
    IsWhole (splitsAtDelimiter isArgumentDelimiter) s := by
  refine isWhole_of_forall fun c hc => ?_
  obtain ⟨hinert, hdelimiter, -⟩ := forall_mem_literalChars c (h c hc)
  exact ⟨hinert.after_eq, by rw [splitsAtDelimiter, hdelimiter, Bool.and_false]⟩

/-- No delimiter in an argument splits the list that it stands in. -/
theorem ArgumentTree.isWhole_print (argument : ArgumentTree) :
    IsWhole (splitsAtDelimiter isArgumentDelimiter) argument.print := by
  cases argument with
  | null => exact isWhole_of_literalChars mem_literalChars_null
  | bool b => exact isWhole_of_literalChars (mem_literalChars_bool b)
  | integer n => exact isWhole_of_literalChars fun c hc => mem_literalChars_intText hc
  | text t => exact isWhole_quoted t.isQuote t.absent
  | reference target => exact isWhole_braced target.closed_print

/-! ## Blanks around what is printed -/

theorem hasNoEdges_append {p : Char → Bool} {s t : List Char} (hs : s ≠ []) (ht : t ≠ [])
    (hhead : ∀ c ∈ s.head?, p c = false) (hlast : ∀ c ∈ t.getLast?, p c = false) :
    HasNoEdges p (s ++ t) := by
  obtain ⟨c, s, rfl⟩ := List.exists_cons_of_ne_nil hs
  refine ⟨hhead, fun d hd => hlast d ?_⟩
  rwa [List.getLast?_append_of_ne_nil _ ht] at hd

theorem hasNoEdges_of_forall {p : Char → Bool} {s : List Char} (h : ∀ c ∈ s, p c = false) :
    HasNoEdges p s :=
  ⟨fun c hc => h c (List.mem_of_mem_head? hc), fun c hc => h c (List.mem_of_getLast? hc)⟩

theorem hasNoEdges_joinWith {p : Char → Bool} {glue : List Char} {pieces : List (List Char)}
    (h : ∀ s ∈ pieces, s ≠ [] ∧ HasNoEdges p s) : HasNoEdges p (joinWith glue pieces) := by
  induction pieces with
  | nil => exact hasNoEdges_of_forall fun c hc => nomatch hc
  | cons s rest ih =>
    rw [List.forall_mem_cons] at h
    obtain ⟨⟨hne, hs⟩, hrest⟩ := h
    cases rest with
    | nil => exact hs
    | cons t rest =>
      have htail : joinWith glue (t :: rest) ≠ [] := by
        rw [joinWith_cons]
        exact List.append_ne_nil_of_left_ne_nil (hrest t List.mem_cons_self).1 _
      rw [joinWith_cons_cons, List.append_assoc]
      refine hasNoEdges_append hne (List.append_ne_nil_of_right_ne_nil _ htail) hs.head ?_
      rw [List.getLast?_append_of_ne_nil _ htail]
      exact (ih hrest).last

theorem trimBlank_eq_self {s : List Char} (h : HasNoEdges isBlank s) : trimBlank s = s := by
  cases s with
  | nil => rfl
  | cons c s => exact trimBoth_eq_self h (List.cons_ne_nil c s)

theorem isBlank_eq_false_of_isQuote {c : Char} (h : isQuote c) : isBlank c = false := by
  rw [isQuote, Bool.or_eq_true, beq_iff_eq, beq_iff_eq] at h
  rcases h with rfl | rfl <;> decide

theorem ArgumentTree.print_ne_nil (argument : ArgumentTree) : argument.print ≠ [] := by
  cases argument with
  | null => decide
  | bool b => cases b <;> decide
  | integer n =>
    rw [ArgumentTree.print, intText, String.toList_ofList]
    split
    · exact List.cons_ne_nil _ _
    · exact Nat.toDigits_ne_nil
  | text t => exact List.cons_ne_nil _ _
  | reference target => exact List.cons_ne_nil _ _

theorem ArgumentTree.hasNoEdges_print (argument : ArgumentTree) :
    HasNoEdges isBlank argument.print := by
  have hliteral {s : List Char} (h : ∀ c ∈ s, c ∈ literalChars) : HasNoEdges isBlank s :=
    hasNoEdges_of_forall fun c hc => (forall_mem_literalChars c (h c hc)).2.2
  have hedge {d : Char} (hd : isBlank d = false) : ∀ c ∈ some d, isBlank c = false := by
    rintro c ⟨⟩
    exact hd
  cases argument with
  | null => exact hliteral mem_literalChars_null
  | bool b => exact hliteral (mem_literalChars_bool b)
  | integer n => exact hliteral fun c hc => mem_literalChars_intText hc
  | text t =>
    have hquote := hedge (isBlank_eq_false_of_isQuote t.isQuote)
    rw [ArgumentTree.print]
    exact hasNoEdges_append (List.cons_ne_nil _ _) (List.cons_ne_nil _ _) hquote hquote
  | reference target =>
    rw [ArgumentTree.print]
    exact hasNoEdges_append (List.cons_ne_nil _ _) (List.cons_ne_nil _ _)
      (hedge (by decide)) (hedge (by decide))

theorem CallbackName.isBlank_eq_false (name : CallbackName) :
    ∀ c ∈ name.chars, isBlank c = false :=
  fun c hc => isBlank_eq_false_of_isWord (name.word c hc)

theorem CallTree.trimBlank_print (call : CallTree) : trimBlank call.print = call.print := by
  refine trimBlank_eq_self ?_
  cases call with
  | bare name => exact hasNoEdges_of_forall name.isBlank_eq_false
  | applied name arguments =>
    have hname := hasNoEdges_of_forall name.isBlank_eq_false
    rw [CallTree.print]
    refine hasNoEdges_append name.nonempty (List.cons_ne_nil _ _) hname.head ?_
    rw [List.getLast?_append_of_ne_nil _ (List.cons_ne_nil _ _)]
    rintro c ⟨⟩
    decide

/-! ## Literals -/

theorem lowerText_cons {c : Char} (hascii : c.toNat < 128) (hlower : c.toLower = c)
    (rest : List Char) :
    lowerText (String.ofList (c :: rest)) = String.ofList (c :: lowerAfter [c] rest) := by
  have hsigma : c ≠ 'Σ' := by
    rintro rfl
    exact absurd hascii (by decide)
  rw [lowerText, String.toList_ofList, lowerAfter, if_neg hsigma, lowerChar, if_pos hascii, hlower,
    List.singleton_append]

/-- A word that starts with no letter is a number or no literal. -/
theorem literalWord?_cons {c : Char} (hascii : c.toNat < 128) (hlower : c.toLower = c)
    (hc : c ≠ 't' ∧ c ≠ 'f' ∧ c ≠ 'n') (rest : List Char) :
    literalWord? (String.ofList (c :: rest))
      = (parseNumber? (String.ofList (c :: rest))).map .number := by
  have hne (word : String) (hword : word.toList.head? ≠ some c) :
      lowerText (String.ofList (c :: rest)) ≠ word := by
    rw [lowerText_cons hascii hlower]
    rintro rfl
    rw [String.toList_ofList] at hword
    exact hword rfl
  have ht := hne "true" fun h => hc.1 (Option.some.inj h).symm
  have hf := hne "false" fun h => hc.2.1 (Option.some.inj h).symm
  have hn := hne "null" fun h => hc.2.2 (Option.some.inj h).symm
  unfold literalWord?
  dsimp only
  rw [if_neg ht, if_neg hf, if_neg hn]

theorem literalWord?_integerText (t : IntegerText) :
    literalWord? t.text = (parseNumber? t.text).map .number := by
  -- the text starts with a sign or a numeral
  have hstart : ∃ c rest, t.chars = c :: rest ∧ (c = '-' ∨ c = '+' ∨ Json.isNumeral c) := by
    rw [IntegerText.chars]
    cases t.sign with
    | unwritten =>
      obtain ⟨c, rest, hdigits, hc⟩ := t.exists_digits_eq
      exact ⟨c, rest, hdigits, .inr (.inr hc)⟩
    | plus => exact ⟨_, _, rfl, .inr (.inl rfl)⟩
    | minus => exact ⟨_, _, rfl, .inl rfl⟩
  obtain ⟨c, rest, htext, hstart⟩ := hstart
  have hlower : c.toNat < 128 ∧ c.toLower = c ∧ c ≠ 't' ∧ c ≠ 'f' ∧ c ≠ 'n' := by
    have hdigit : ∀ k < 10, let c := Char.ofNat ('0'.toNat + k)
        c.toNat < 128 ∧ c.toLower = c ∧ c ≠ 't' ∧ c ≠ 'f' ∧ c ≠ 'n' := by decide
    rcases hstart with rfl | rfl | hc
    · decide
    · decide
    · obtain ⟨k, hk, rfl⟩ := NumericText.exists_of_isNumeral hc
      exact hdigit k hk
  obtain ⟨hascii, hsmall, hc⟩ := hlower
  rw [IntegerText.text, htext, literalWord?_cons hascii hsmall hc]

theorem literalWord?_intText {n : Int} (h : n.natAbs ≤ 2 ^ Binary64.precision) :
    literalWord? (intText n) = some (.number (.int n)) := by
  rw [← IntegerText.text_ofInt, literalWord?_integerText, IntegerText.text_ofInt,
    parseNumber?_intText h]
  rfl

/-- What starts with a quote mark or a brace is no number. -/
theorem parseNumber?_eq_none {c : Char} (h : isQuote c ∨ c = '{') (rest : List Char) :
    parseNumber? (String.ofList (c :: rest)) = none := by
  have hfirst : NumericText.take? (c :: rest) = none := by
    rcases h with h | rfl
    · rw [isQuote, Bool.or_eq_true, beq_iff_eq, beq_iff_eq] at h
      rcases h with rfl | rfl <;> rfl
    · rfl
  rw [parseNumber?, String.toList_ofList, NumericText.parse?, hfirst]
  rfl

theorem literalWord?_eq_none {c : Char} (h : isQuote c ∨ c = '{') (rest : List Char) :
    literalWord? (String.ofList (c :: rest)) = none := by
  have hc : c.toNat < 128 ∧ c.toLower = c ∧ c ≠ 't' ∧ c ≠ 'f' ∧ c ≠ 'n' := by
    rcases h with h | rfl
    · rw [isQuote, Bool.or_eq_true, beq_iff_eq, beq_iff_eq] at h
      rcases h with rfl | rfl <;> decide
    · decide
  rw [literalWord?_cons hc.1 hc.2.1 hc.2.2, parseNumber?_eq_none h]
  rfl

/-! ## Words, callbacks and chains -/

theorem inside_append (first last : Char) (s : List Char) :
    inside (first :: s ++ [last]) = s := by
  rw [inside, List.cons_append, List.tail_cons, List.dropLast_concat]

theorem isEnclosed_append (first last : Char) (s : List Char) :
    isEnclosed first last (first :: s ++ [last]) := by
  have hlast : (first :: s ++ [last]).getLast? = some last := List.getLast?_concat
  rw [isEnclosed, hlast]
  simp

theorem callForm?_of_word {s : List Char} (h : ∀ c ∈ s, isWord c) : callForm? s = none := by
  have hdrop : s.dropWhile isWord = [] := List.dropWhile_eq_nil_iff.2 h
  rw [callForm?, hdrop]
  rfl

theorem callForm?_append {name text : List Char} (hne : name ≠ []) (h : ∀ c ∈ name, isWord c) :
    callForm? (name ++ ('(' :: text ++ [')'])) = some (name, text) := by
  have hparen : ¬ isWord '(' = true := by decide
  have htake : (name ++ ('(' :: text ++ [')'])).takeWhile isWord = name := by
    rw [List.takeWhile_append_of_pos h, List.cons_append, List.takeWhile_cons_of_neg hparen,
      List.append_nil]
  have hdrop : (name ++ ('(' :: text ++ [')'])).dropWhile isWord = '(' :: text ++ [')'] := by
    rw [List.dropWhile_append_of_pos h, List.cons_append, List.dropWhile_cons_of_neg hparen]
  have hblank : ('(' :: text ++ [')']).dropWhile isBlank = '(' :: (text ++ [')']) :=
    List.dropWhile_cons_of_neg (by decide)
  rw [callForm?, htake, hdrop, hblank]
  simp [hne]

theorem splitAtChar_joinWith {parts : List (List Char)} (hne : parts ≠ [])
    (h : ∀ s ∈ parts, '.' ∉ s) : splitAtChar '.' (joinWith ['.'] parts) = parts := by
  obtain ⟨s, rest, rfl⟩ := List.exists_cons_of_ne_nil hne
  rw [List.forall_mem_cons] at h
  rw [joinWith_cons]
  exact splitAtChar_dotted h.1 h.2

/-- The callback that a segment of a chain denotes. -/
def Call.parse (segment : List Char) : Call := .ofSegment segment fun s _ => Reference.parse s

theorem Reference.parse_eq (source : List Char) :
    Reference.parse source
      = .mk (.text (String.ofList source)) (.text ((dottedNames source).head?.getD ""))
          ((dottedNames source).tail.map .text) ((callSegments source).map Call.parse) := by
  have hcalls : ((callSegments source).attach.map fun segment => Call.parse segment.1)
      = (callSegments source).map Call.parse := List.attach_map_val
  rw [Reference.parse, ← hcalls]
  rfl

theorem Call.parse_of_none {segment : List Char} (h : callForm? segment = none) :
    Call.parse segment
      = .mk (.text (String.ofList segment)) none (.text (String.ofList segment)) := by
  unfold Call.parse Call.ofSegment
  split
  · rfl
  · rename_i hsome
    exact nomatch h.symm.trans hsome

theorem Call.parse_of_some {segment name text : List Char}
    (h : callForm? segment = some (name, text)) :
    Call.parse segment
      = .mk (.text (String.ofList name)) (some ((argumentWords text).map Argument.parse))
          (.text (String.ofList segment)) := by
  have hwords : ((argumentWords text).attach.map fun word => Argument.parse word.1)
      = (argumentWords text).map Argument.parse := List.attach_map_val
  unfold Call.parse Call.ofSegment
  split
  · rename_i hnone
    exact nomatch h.symm.trans hnone
  · rename_i hsome
    cases h.symm.trans hsome
    rw [← hwords]
    rfl

theorem Argument.parse_of_literal {word : List Char} {value : Value}
    (h : literalWord? (String.ofList word) = some value) :
    Argument.parse word = .literal value := by
  rw [Argument.parse, Argument.ofWord, h]

theorem Argument.parse_braced (body : List Char) :
    Argument.parse ('{' :: body ++ ['}']) = .reference (Reference.parse body) := by
  have hnone : literalWord? (String.ofList ('{' :: body ++ ['}'])) = none :=
    literalWord?_eq_none (.inr rfl) _
  have hbraces : isEnclosed '{' '}' ('{' :: body ++ ['}']) := isEnclosed_append ..
  rw [Argument.parse, Argument.ofWord, hnone]
  dsimp only
  rw [dif_pos hbraces, inside_append]

theorem Argument.parse_quoted {quote : Char} (h : isQuote quote) (chars : List Char) :
    Argument.parse (quote :: chars ++ [quote])
      = .text (embeddedChunks (String.ofList chars)) := by
  have hnone : literalWord? (String.ofList (quote :: chars ++ [quote])) = none :=
    literalWord?_eq_none (.inl h) _
  have hsame := isEnclosed_append quote quote chars
  have hquotes : ¬ isEnclosed '{' '}' (quote :: chars ++ [quote]) = true
      ∧ (isEnclosed '\'' '\'' (quote :: chars ++ [quote])
        || isEnclosed '"' '"' (quote :: chars ++ [quote])) = true := by
    rw [isQuote, Bool.or_eq_true, beq_iff_eq, beq_iff_eq] at h
    rcases h with rfl | rfl
    · exact ⟨by simp [isEnclosed], by rw [hsame, Bool.true_or]⟩
    · exact ⟨by simp [isEnclosed], by rw [hsame, Bool.or_true]⟩
  rw [Argument.parse, Argument.ofWord, hnone]
  dsimp only
  rw [dif_neg hquotes.1, if_pos hquotes.2, chunksOf_parse, inside_append, embeddedChunks_ofList,
    chunksOf_parse]

/-! ## What is scanned from a printed tree -/

theorem forall_mem_printCalls {P : List Char → Prop} (h : ∀ call : CallTree, P call.print)
    (calls : List CallTree) : ∀ s ∈ printCalls calls, P s := by
  induction calls with
  | nil => exact fun _ h => nomatch h
  | cons call rest ih =>
    rw [printCalls, List.forall_mem_cons]
    exact ⟨h call, ih⟩

theorem forall_mem_printArguments {P : List Char → Prop}
    (h : ∀ argument : ArgumentTree, P argument.print) (arguments : List ArgumentTree) :
    ∀ s ∈ printArguments arguments, P s := by
  induction arguments with
  | nil => exact fun _ h => nomatch h
  | cons argument rest ih =>
    rw [printArguments, List.forall_mem_cons]
    exact ⟨h argument, ih⟩

/-- The words of a printed list of arguments are the printed arguments. -/
theorem argumentWords_printArguments (arguments : List ArgumentTree) :
    argumentWords (joinWith [',', ' '] (printArguments arguments)) = printArguments arguments := by
  have hedges : ∀ s ∈ printArguments arguments, s ≠ [] ∧ HasNoEdges isBlank s :=
    forall_mem_printArguments (fun argument => ⟨argument.print_ne_nil, argument.hasNoEdges_print⟩)
      arguments
  have hwhole : ∀ s ∈ printArguments arguments,
      s ≠ [] ∧ IsWhole (splitsAtDelimiter isArgumentDelimiter) s :=
    forall_mem_printArguments (fun argument => ⟨argument.print_ne_nil, argument.isWhole_print⟩)
      arguments
  have hglue : IsGlue isArgumentDelimiter [',', ' '] := by
    simp [IsGlue, splitsAtDelimiter, isArgumentDelimiter]
    decide
  rw [argumentWords, trimBlank_eq_self (hasNoEdges_joinWith hedges),
    words_joinWith (List.cons_ne_nil _ _) hglue hwhole]

theorem forall_mem_path {name : TagName} {keys : List TagName} {c : Char}
    (h : c ∈ joinWith ['.'] (name.chars :: keys.map TagName.chars)) : c = '.' ∨ isNameChar c := by
  rcases mem_joinWith h with h | ⟨s, hs, h⟩
  · exact .inl (List.mem_singleton.1 h)
  · rcases List.mem_cons.1 hs with rfl | hs
    · exact .inr (name.plain c h)
    · obtain ⟨key, -, rfl⟩ := List.mem_map.1 hs
      exact .inr (key.plain c h)

/-- The parts of a printed chain are the path and the printed callbacks. -/
theorem splitChain_print (name : TagName) (keys : List TagName) (calls : List CallTree) :
    splitChain (ReferenceTree.mk name keys calls).print
      = joinWith ['.'] (name.chars :: keys.map TagName.chars) :: printCalls calls := by
  have hpath : IsWhole splitsAtBar (joinWith ['.'] (name.chars :: keys.map TagName.chars)) := by
    refine isWhole_of_forall fun c hc => ?_
    have hinert : IsInert c ∧ c ≠ '|' := by
      rcases forall_mem_path hc with rfl | hc
      · decide
      · exact isInert_of_isNameChar hc
    exact ⟨hinert.1.after_eq, by rw [splitsAtBar, beq_false_of_ne hinert.2, Bool.and_false]⟩
  rw [ReferenceTree.print]
  refine splitChain_joinWith (List.cons_ne_nil _ _) ?_
  rw [List.forall_mem_cons]
  exact ⟨hpath, forall_mem_printCalls CallTree.isWhole_print calls⟩

theorem callSegments_print (name : TagName) (keys : List TagName) (calls : List CallTree) :
    callSegments (ReferenceTree.mk name keys calls).print = printCalls calls := by
  have htrim : (printCalls calls).map trimBlank = (printCalls calls).map id :=
    List.map_congr_left (forall_mem_printCalls CallTree.trimBlank_print calls)
  rw [callSegments, splitChain_print, List.tail_cons, htrim, List.map_id]

theorem dottedNames_print (name : TagName) (keys : List TagName) (calls : List CallTree) :
    dottedNames (ReferenceTree.mk name keys calls).print
      = String.ofList name.chars :: keys.map fun key => String.ofList key.chars := by
  have hblank : ∀ c ∈ joinWith ['.'] (name.chars :: keys.map TagName.chars), isBlank c = false := by
    intro c hc
    rcases forall_mem_path hc with rfl | hc
    · decide
    · simp [isNameChar] at hc
      exact hc.1.1
  have hdot (name : TagName) : '.' ∉ name.chars := fun h => nomatch name.plain '.' h
  have hdots : ∀ s ∈ name.chars :: keys.map TagName.chars, '.' ∉ s := by
    rw [List.forall_mem_cons, List.forall_mem_map]
    exact ⟨hdot name, fun key _ => hdot key⟩
  rw [dottedNames, splitChain_print, List.head?_cons, Option.getD_some,
    trimBlank_eq_self (hasNoEdges_of_forall hblank),
    splitAtChar_joinWith (List.cons_ne_nil _ _) hdots, List.map_cons, List.map_map]
  rfl

/-! ## Printed trees are parsed back -/

/-- A printed tree is parsed back if its callbacks are. -/
theorem parse_print_of_calls (name : TagName) (keys : List TagName) {calls : List CallTree}
    (h : (printCalls calls).map Call.parse = toCalls calls) :
    Reference.parse (ReferenceTree.mk name keys calls).print
      = (ReferenceTree.mk name keys calls).toReference := by
  rw [Reference.parse_eq, dottedNames_print, callSegments_print, h, ReferenceTree.toReference,
    List.tail_cons, List.map_map]
  rfl

mutual

theorem map_parse_printCalls (calls : List CallTree) :
    (printCalls calls).map Call.parse = toCalls calls := by
  match calls with
  | [] => rfl
  | call :: rest =>
    rw [printCalls, List.map_cons, call.parse_print_eq_toCall, map_parse_printCalls rest, toCalls]

theorem CallTree.parse_print_eq_toCall (call : CallTree) :
    Call.parse call.print = call.toCall := by
  match call with
  | .bare name => exact Call.parse_of_none (callForm?_of_word name.word)
  | .applied name arguments =>
    rw [CallTree.print, Call.parse_of_some (callForm?_append name.nonempty name.word),
      argumentWords_printArguments, map_parse_printArguments arguments]
    rfl

theorem map_parse_printArguments (arguments : List ArgumentTree) :
    (printArguments arguments).map Argument.parse = toArguments arguments := by
  match arguments with
  | [] => rfl
  | argument :: rest =>
    rw [printArguments, List.map_cons, argument.parse_print_eq_toArgument,
      map_parse_printArguments rest, toArguments]

theorem ArgumentTree.parse_print_eq_toArgument (argument : ArgumentTree) :
    Argument.parse argument.print = argument.toArgument := by
  match argument with
  | .null => exact Argument.parse_of_literal rfl
  | .bool b => exact Argument.parse_of_literal (by cases b <;> rfl)
  | .integer n =>
    refine Argument.parse_of_literal ?_
    rw [ArgumentTree.print, String.ofList_toList]
    exact literalWord?_intText n.bounded
  | .text t => exact Argument.parse_quoted t.isQuote t.chars
  | .reference (.mk name keys calls) =>
    have htarget := parse_print_of_calls name keys (map_parse_printCalls calls)
    rw [ArgumentTree.print, Argument.parse_braced, htarget, ArgumentTree.toArgument]

end

/-- Parsing undoes printing: the tag that a tree is printed as denotes the reference that the tree
    stands for. -/
theorem ReferenceTree.parse_print (tree : ReferenceTree) :
    Reference.parse tree.print = tree.toReference := by
  obtain ⟨name, keys, calls⟩ := tree
  exact parse_print_of_calls name keys (map_parse_printCalls calls)

end BlockTemplate
