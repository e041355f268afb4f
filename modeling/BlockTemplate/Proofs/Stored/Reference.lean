import BlockTemplate.Proofs.Condition.Balance
import BlockTemplate.Proofs.Outcome
import BlockTemplate.Proofs.Reference.Chunks
import BlockTemplate.Stored.Reference

/-!
# Stored references and conditions are read back

What the parser makes of a text can be stored: reading the stored form gives it back. Parsing gives
only labels that are texts, literals that are no texts, and text arguments that are the pieces of
their source; these are the things that the stored form relies on.

## Key results

- `Reference.ofJson_toJson`: storable references are read back
- `Reference.isStorable_parse`: parsed references are storable
- `Condition.ofJson_toJson`: parsed conditions are read back
-/

namespace BlockTemplate

/-! ## Reading fields and lists -/

namespace Json

variable {members : List (String × Json)} {name : String} {value : Json}

theorem field_of_valueOf? (h : valueOf? name members = some value) :
    (object members).field name = .ok ⟨value, sizeOf_lt_of_valueOf? h⟩ := by
  simp only [field]
  split
  · rename_i part hpart
    cases h.symm.trans hpart
    rfl
  · rename_i hnone
    exact nomatch h.symm.trans hnone

theorem field?_of_valueOf? (h : valueOf? name members = some value) :
    (object members).field? name = .ok (some ⟨value, sizeOf_lt_of_valueOf? h⟩) := by
  simp only [field?]
  split
  · rename_i part hpart
    cases h.symm.trans hpart
    rfl
  · rename_i hnone
    exact nomatch h.symm.trans hnone

theorem field?_of_missing (h : valueOf? name members = none) :
    (object members).field? name = .ok none := by
  simp only [field?]
  split
  · rename_i part hpart
    exact nomatch h.symm.trans hpart
  · rfl

/-- The parts of a list are its items. -/
theorem parts_array (items : List Json) (textError : String → StoredError) :
    ∃ parts, (array items).parts textError = .ok parts ∧ parts.map (·.1) = items :=
  ⟨_, rfl, by simp⟩

theorem labelsField_of_array {items : List Json} (h : valueOf? name members = some (array items)) :
    (object members).labelsField name = .ok items := by
  simp only [labelsField, field?_of_valueOf? h, ok_bind]
  cases items with
  | nil => rfl
  | cons item items => rfl

theorem partsField_of_array {items : List Json} (h : valueOf? name members = some (array items))
    (textError : String → StoredError) :
    ∃ parts, (object members).partsField name textError = .ok parts ∧ parts.map (·.1) = items := by
  simp only [partsField, field?_of_valueOf? h, ok_bind]
  cases items with
  | nil => exact ⟨[], rfl, rfl⟩
  | cons item items => exact ⟨_, rfl, by simp⟩

end Json

/-- Reading parts is reading what they are. -/
theorem mapM_parts {α : Type} {j : Json} {parts : List (Json.Part j)} {items : List Json}
    (h : parts.map (·.1) = items) (read : Json → Except StoredError α) :
    (parts.mapM fun part => read part.1) = items.mapM read := by
  rw [← h, List.mapM_map]
  rfl

/-! ## References -/

mutual

/-- Whether labels are texts, literals are no texts, and text arguments the pieces of their
    source. -/
def Reference.IsStorable : Reference → Prop
  | .mk source name keys calls =>
    (source.isText ∧ name.isText ∧ ∀ key ∈ keys, key.isText) ∧ CallsAreStorable calls

def CallsAreStorable : List Call → Prop
  | [] => True
  | .mk name none source :: rest => (name.isText ∧ source.isText) ∧ CallsAreStorable rest
  | .mk name (some arguments) source :: rest =>
    (name.isText ∧ source.isText) ∧ ArgumentsAreStorable arguments ∧ CallsAreStorable rest

def ArgumentsAreStorable : List Argument → Prop
  | [] => True
  | argument :: rest => argument.IsStorable ∧ ArgumentsAreStorable rest

def Argument.IsStorable : Argument → Prop
  | .literal value => value.isScalar ∧ value.isText = false
  | .text chunks => chunks = embeddedChunks (chunksSource chunks)
  | .reference target => target.IsStorable

end

theorem Value.ofLiteral_toJson {value : Value} (h : value.isScalar) (ht : value.isText = false) :
    Argument.ofLiteral value.toJson = .literal value := by
  cases value with
  | null | bool _ | number _ => rfl
  | text s => exact nomatch ht
  | sequence | mapping | object => exact nomatch h

/-- A record with a value is read as a literal or a text. -/
theorem Argument.ofJson_value (j : Json) :
    Argument.ofJson (.object [("value", j)]) = .ok (.ofLiteral j) := by
  rw [Argument.ofJson]
  · rw [Json.field?_of_missing rfl, ok_bind]
    simp only [Json.field?_of_valueOf? (rfl : valueOf? "value" [("value", j)] = some j), ok_bind]
    rfl
  all_goals simp

/-- A record with a reference is read as a reference. -/
theorem Argument.ofJson_ref (j : Json) :
    Argument.ofJson (.object [("ref", j)]) = (Reference.ofJson j).map .reference := by
  rw [Argument.ofJson]
  · rw [Json.field?_of_valueOf? rfl, ok_bind]
    rfl
  all_goals simp

mutual

/-- Storable references are read back. -/
theorem Reference.ofJson_toJson {r : Reference} (h : r.IsStorable) :
    Reference.ofJson r.toJson = .ok r := by
  match r with
  | .mk source name keys calls =>
    -- the parts of the list of callbacks are the callbacks as written, which are read back by
    -- recursion
    obtain ⟨parts, hparts, hcalls⟩ := Json.partsField_of_array
      (rfl : valueOf? "callbacks" [("source", source), ("name", name), ("keys", .array keys),
        ("callbacks", .array (callsToJson calls))] = _) fun _ => .notARecord
    rw [Reference.toJson, Reference.ofJson, Json.field_of_valueOf? rfl, ok_bind,
      Json.field_of_valueOf? rfl, ok_bind, Json.labelsField_of_array rfl, ok_bind, hparts, ok_bind,
      mapM_parts hcalls, mapM_callsToJson h.2]
    rfl

theorem mapM_callsToJson {calls : List Call} (h : CallsAreStorable calls) :
    (callsToJson calls).mapM Call.ofJson = .ok calls := by
  match calls with
  | [] => rfl
  | .mk name none source :: rest =>
    have hrest : CallsAreStorable rest := h.2
    -- a callback without parentheses has null in the place of its arguments
    have hcall : Call.ofJson (.object [("name", name), ("args", .null), ("source", source)])
        = .ok (.mk name none source) := by
      rw [Call.ofJson, Json.field?_of_valueOf? rfl, ok_bind]
      simp only [if_true, pure_bind]
      rw [Json.field_of_valueOf? rfl, ok_bind, Json.field?_of_valueOf? rfl]
      rfl
    rw [callsToJson, List.mapM_cons, hcall, ok_bind, mapM_callsToJson hrest]
    rfl
  | .mk name (some arguments) source :: rest =>
    have harguments := mapM_argumentsToJson h.2.1
    obtain ⟨parts, hparts, hitems⟩ := Json.parts_array (argumentsToJson arguments)
      (argumentError ∘ .text)
    have hcall : Call.ofJson (.object [("name", name),
          ("args", .array (argumentsToJson arguments)), ("source", source)])
        = .ok (.mk name (some arguments) source) := by
      rw [Call.ofJson, Json.field?_of_valueOf? rfl, ok_bind]
      simp only [Bool.false_eq_true, if_false, hparts, ok_bind, mapM_parts hitems, harguments,
        pure_bind]
      rw [Json.field_of_valueOf? rfl, ok_bind, Json.field?_of_valueOf? rfl]
      rfl
    rw [callsToJson, List.mapM_cons, hcall, ok_bind, mapM_callsToJson h.2.2]
    rfl

theorem mapM_argumentsToJson {arguments : List Argument} (h : ArgumentsAreStorable arguments) :
    (argumentsToJson arguments).mapM Argument.ofJson = .ok arguments := by
  match arguments with
  | [] => rfl
  | argument :: rest =>
    rw [argumentsToJson, List.mapM_cons, Argument.ofJson_toJson h.1, ok_bind,
      mapM_argumentsToJson h.2]
    rfl

/-- Storable arguments are read back. -/
theorem Argument.ofJson_toJson {argument : Argument} (h : argument.IsStorable) :
    Argument.ofJson argument.toJson = .ok argument := by
  match argument with
  | .literal value =>
    rw [Argument.toJson, Argument.ofJson_value, Value.ofLiteral_toJson h.1 h.2]
  | .text chunks =>
    have hchunks : embeddedChunks (chunksSource chunks) = chunks := Eq.symm h
    rw [Argument.toJson, Argument.ofJson_value, Argument.ofLiteral, hchunks]
  | .reference target =>
    have htarget : target.IsStorable := h
    rw [Argument.toJson, Argument.ofJson_ref, Reference.ofJson_toJson htarget]
    rfl

end

/-! ## What is parsed is storable -/

theorem literalWord?_scalar {word : String} {value : Value} (h : literalWord? word = some value) :
    value.isScalar ∧ value.isText = false := by
  unfold literalWord? at h
  dsimp only at h
  split at h
  · cases h
    exact ⟨rfl, rfl⟩
  · split at h
    · cases h
      exact ⟨rfl, rfl⟩
    · split at h
      · cases h
        exact ⟨rfl, rfl⟩
      · obtain ⟨n, -, rfl⟩ := Option.map_eq_some_iff.1 h
        exact ⟨rfl, rfl⟩

theorem isStorable_chunksOf (text : List Char) :
    (Argument.text (chunksOf text fun s _ => Reference.parse s)).IsStorable := by
  rw [Argument.IsStorable, ← embeddedChunks_ofList, chunksSource_embeddedChunks]

theorem isStorable_ofWord {word : List Char}
    (h : ∀ s : List Char, s.length < word.length → (Reference.parse s).IsStorable) :
    (Argument.ofWord word fun s _ => Reference.parse s).IsStorable := by
  unfold Argument.ofWord
  split
  · rename_i value hvalue
    exact literalWord?_scalar hvalue
  · split
    · rename_i hbraces
      exact h _ (length_inside_lt hbraces)
    · split
      · exact isStorable_chunksOf _
      · exact isStorable_chunksOf word

theorem argumentsAreStorable_of_forall {arguments : List Argument}
    (h : ∀ argument ∈ arguments, argument.IsStorable) : ArgumentsAreStorable arguments := by
  induction arguments with
  | nil => trivial
  | cons argument rest ih =>
    exact ⟨h _ List.mem_cons_self, ih fun a ha => h a (List.mem_cons_of_mem _ ha)⟩

/-- Whether the labels of a callback are texts, and its arguments are storable. -/
def Call.IsStorable (c : Call) : Prop :=
  (c.name.isText ∧ c.source.isText) ∧ ∀ arguments ∈ c.arguments, ArgumentsAreStorable arguments

theorem callsAreStorable_of_forall {calls : List Call} (h : ∀ c ∈ calls, c.IsStorable) :
    CallsAreStorable calls := by
  induction calls with
  | nil => trivial
  | cons c rest ih =>
    have hrest := ih fun a ha => h a (List.mem_cons_of_mem _ ha)
    obtain ⟨hlabels, harguments⟩ := h _ List.mem_cons_self
    obtain ⟨name, arguments, source⟩ := c
    cases arguments with
    | none => exact ⟨hlabels, hrest⟩
    | some arguments => exact ⟨hlabels, harguments arguments rfl, hrest⟩

theorem isStorable_ofSegment {segment : List Char}
    (h : ∀ s : List Char, s.length < segment.length → (Reference.parse s).IsStorable) :
    (Call.ofSegment segment fun s _ => Reference.parse s).IsStorable := by
  unfold Call.ofSegment
  split
  · exact ⟨⟨rfl, rfl⟩, fun _ harguments => nomatch harguments⟩
  · rename_i name text hform
    refine ⟨⟨rfl, rfl⟩, fun arguments harguments => ?_⟩
    cases harguments
    refine argumentsAreStorable_of_forall fun argument hargument => ?_
    obtain ⟨⟨word, hword⟩, -, rfl⟩ := List.mem_map.1 hargument
    -- a tag in a word of the arguments is shorter than the segment
    refine isStorable_ofWord fun s hs => h s ?_
    have hle := length_le_of_mem_argumentWords hword
    have hlt := length_lt_of_callForm? hform
    omega

/-- Parsed references are storable. -/
theorem Reference.isStorable_parse (source : List Char) : (Reference.parse source).IsStorable := by
  rw [Reference.parse]
  have hkeys : ∀ key ∈ (dottedNames source).tail.map Json.text, key.isText := by
    intro key hkey
    obtain ⟨name, -, rfl⟩ := List.mem_map.1 hkey
    rfl
  refine ⟨⟨rfl, rfl, hkeys⟩, callsAreStorable_of_forall fun c hc => ?_⟩
  obtain ⟨⟨segment, hsegment⟩, -, rfl⟩ := List.mem_map.1 hc
  refine isStorable_ofSegment fun s hs => ?_
  have hle := length_le_of_mem_callSegments hsegment
  exact Reference.isStorable_parse s
termination_by source.length
decreasing_by omega

theorem Argument.isStorable_parse (word : List Char) : (Argument.parse word).IsStorable :=
  isStorable_ofWord fun s _ => Reference.isStorable_parse s

/-! ## Conditions -/

theorem Operator.ofSymbol?_symbol (op : Operator) : Operator.ofSymbol? op.symbol = some op := by
  cases op with
  | binary op => cases op <;> rfl
  | _ => rfl

/-- A stored operand is a record that is no operator. -/
theorem Argument.exists_toJson_eq (value : Argument) :
    ∃ members, value.toJson = .object members ∧ valueOf? "op" members = none := by
  cases value with
  | literal value => exact ⟨_, rfl, rfl⟩
  | text chunks => exact ⟨_, rfl, rfl⟩
  | reference target => exact ⟨_, rfl, rfl⟩

/-- Operators, and storable operands, are read back. -/
theorem Token.ofJson_toJson {token : Token} (h : ∀ value ∈ operands [token], value.IsStorable) :
    Token.ofJson token.toJson = .ok token := by
  cases token with
  | operator op =>
    rw [Token.toJson, Token.ofJson]
    · rw [Json.field?_of_valueOf? rfl, ok_bind]
      simp only [Operator.ofJson, Operator.ofSymbol?_symbol]
      rfl
    all_goals simp
  | operand value =>
    -- an operand is told from an operator by the name of its member
    have hvalue := Argument.ofJson_toJson (h value List.mem_cons_self)
    obtain ⟨members, hmembers, hop⟩ := value.exists_toJson_eq
    rw [Token.toJson, hmembers, Token.ofJson]
    · rw [Json.field?_of_missing hop, ok_bind]
      rw [hmembers] at hvalue
      simp only [hvalue]
      rfl
    all_goals simp

/-- The operands of a scanned condition are parsed words. -/
theorem isStorable_of_mem_scan {condition : List Char} {value : Argument}
    (h : value ∈ operands (Token.scan condition)) : value.IsStorable := by
  obtain ⟨token, htoken, hvalue⟩ := List.mem_filterMap.1 h
  obtain ⟨word, -, rfl⟩ := List.mem_map.1 htoken
  cases hsymbol : Operator.ofSymbol? (String.ofList word) with
  | some op => simp [Token.ofWord, hsymbol] at hvalue
  | none =>
    simp only [Token.ofWord, hsymbol, Option.some.injEq] at hvalue
    exact hvalue ▸ Argument.isStorable_parse word

/-- The source of a compiled condition is a text, and its operands are storable. -/
theorem Condition.isStorable_of_parse {source : List Char} {c : Condition}
    (h : Condition.parse source = .ok c) :
    c.source.isText ∧ ∀ value ∈ operands c.tokens, value.IsStorable := by
  unfold Condition.parse at h
  split at h
  · rename_i tokens htokens
    cases h
    refine ⟨rfl, fun value hvalue => ?_⟩
    rw [operands_postfixFrom htokens] at hvalue
    exact isStorable_of_mem_scan hvalue
  · exact nomatch h

/-- Compiled conditions are read back. -/
theorem Condition.ofJson_toJson {source : List Char} {c : Condition}
    (h : Condition.parse source = .ok c) : Condition.ofJson c.toJson = .ok c := by
  obtain ⟨-, hstorable⟩ := Condition.isStorable_of_parse h
  have htokens : (c.tokens.map Token.toJson).mapM Token.ofJson = .ok c.tokens :=
    mapM_map_eq_ok fun token htoken => Token.ofJson_toJson fun value hvalue =>
      hstorable value (mem_operands_of_mem htoken hvalue)
  obtain ⟨parts, hparts, hitems⟩ := Json.parts_array (c.tokens.map Token.toJson)
    (tokenError ∘ .text)
  rw [Condition.toJson, Condition.ofJson, Json.field_of_valueOf? rfl, ok_bind,
    Json.field_of_valueOf? rfl, ok_bind, tokensOfJson, hparts, ok_bind, mapM_parts hitems, htokens]
  rfl

end BlockTemplate
