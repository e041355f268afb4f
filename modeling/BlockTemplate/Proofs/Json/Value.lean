import BlockTemplate.Proofs.Json.Number
import BlockTemplate.Proofs.Json.Text
import BlockTemplate.Proofs.Outcome

/-!
# JSON values are read back

A value is read back from its text if its numbers are, if no two members of an object have one name,
and if no more arrays and objects are open at once than the reader allows.

## Key results

- `readValue_write`: a value is read in front of a comma or a closing bracket
- `parse_spacedText`: a value is read back from its text
- `isFrom_write`: which characters a value is written with
-/

namespace BlockTemplate.Json

mutual

/-- The most arrays and objects that are open at once. -/
def depth : Json → Nat
  | .array items => itemsDepth items + 1
  | .object members => membersDepth members + 1
  | _ => 0

def itemsDepth : List Json → Nat
  | [] => 0
  | j :: rest => max j.depth (itemsDepth rest)

def membersDepth : List (String × Json) → Nat
  | [] => 0
  | (_, j) :: rest => max j.depth (membersDepth rest)

end

mutual

/-- Whether a property holds of a value and of all values in it. -/
def All (P : Json → Prop) : Json → Prop
  | .array items => P (.array items) ∧ AllItems P items
  | .object members => P (.object members) ∧ AllMembers P members
  | j => P j

def AllItems (P : Json → Prop) : List Json → Prop
  | [] => True
  | j :: rest => j.All P ∧ AllItems P rest

def AllMembers (P : Json → Prop) : List (String × Json) → Prop
  | [] => True
  | (_, j) :: rest => j.All P ∧ AllMembers P rest

end

/-- Whether a value, if it is a number, is read back. -/
def NumberReadsBack : Json → Prop
  | .number n => ReadsBack n
  | _ => True

/-- Whether a value, if it is an object, has no two members of one name. -/
def NamesAreDistinct : Json → Prop
  | .object members => DistinctKeys members
  | _ => True

/-! ## Blanks -/

@[simp] theorem spaced_item : Spacing.spaced.item = [',', ' '] := rfl

@[simp] theorem spaced_name : Spacing.spaced.name = [':', ' '] := rfl

theorem skipSpace_of_not_isSpace {c : Char} (h : isSpace c = false) (rest : List Char) :
    skipSpace (c :: rest) = c :: rest := by
  simp [skipSpace, h]

theorem skipSpace_space (rest : List Char) : skipSpace (' ' :: rest) = skipSpace rest := by
  simp [skipSpace, isSpace]

/-- Whether a text starts with a character that is no blank and closes nothing. -/
def StartsValue (s : List Char) : Prop :=
  ∃ c rest, s = c :: rest ∧ isSpace c = false ∧ c ≠ ']' ∧ c ≠ '}'

/-- Whether a number can start with a character. -/
def startsNumber (c : Char) : Bool := c == 'N' || c == 'I' || c == '-' || isNumeral c

theorem exists_startsNumber {s : List Char} (h : IsNumberText s) :
    ∃ c rest, s = c :: rest ∧ startsNumber c = true := by
  cases h with
  | nan => exact ⟨_, _, rfl, rfl⟩
  | infinity => exact ⟨_, _, rfl, rfl⟩
  | negativeInfinity => exact ⟨_, _, rfl, rfl⟩
  | positive hc rest => exact ⟨_, _, rfl, by rw [startsNumber, hc, Bool.or_true]⟩
  | negative hc rest => exact ⟨_, _, rfl, rfl⟩

theorem ne_of_startsNumber {c d : Char} (hc : startsNumber c = true)
    (hd : startsNumber d = false) : c ≠ d := by
  rintro rfl
  exact nomatch hc.symm.trans hd

theorem startsValue_of_startsNumber {c : Char} (hc : startsNumber c = true) (rest : List Char) :
    StartsValue (c :: rest) := by
  -- neither a blank nor a bracket can start a number
  have hspace : isSpace c = false := by
    simp only [isSpace, Bool.or_eq_false_iff, beq_eq_false_iff_ne]
    exact ⟨⟨⟨ne_of_startsNumber hc rfl, ne_of_startsNumber hc rfl⟩, ne_of_startsNumber hc rfl⟩,
      ne_of_startsNumber hc rfl⟩
  exact ⟨c, rest, rfl, hspace, ne_of_startsNumber hc rfl, ne_of_startsNumber hc rfl⟩

theorem startsValue_write {j : Json} (h : j.All NumberReadsBack) :
    StartsValue (j.write .spaced) := by
  cases j with
  | null => exact ⟨_, _, rfl, rfl, by decide, by decide⟩
  | bool b => cases b <;> exact ⟨_, _, rfl, rfl, by decide, by decide⟩
  | number n =>
    obtain ⟨c, rest, hwrite, hc⟩ := exists_startsNumber (isNumberText_of_readScalar (n := n) h)
    rw [write, hwrite]
    exact startsValue_of_startsNumber hc rest
  | text s => exact ⟨_, _, rfl, rfl, by decide, by decide⟩
  | array items => exact ⟨_, _, rfl, rfl, by decide, by decide⟩
  | object members => exact ⟨_, _, rfl, rfl, by decide, by decide⟩

theorem StartsValue.append {s : List Char} (h : StartsValue s) (after : List Char) :
    StartsValue (s ++ after) := by
  obtain ⟨c, rest, rfl, hc⟩ := h
  exact ⟨c, rest ++ after, rfl, hc⟩

/-- In front of a value there are no blanks. -/
theorem StartsValue.skipSpace_eq {s : List Char} (h : StartsValue s) : skipSpace s = s := by
  obtain ⟨c, rest, rfl, hspace, -⟩ := h
  exact skipSpace_of_not_isSpace hspace rest

/-! ## Values -/

section
variable {room fuel : Nat}

/-- What starts with no quote and no bracket is a word or a number. -/
theorem readValue_scalar {s : List Char} (hquote : ∀ rest, s ≠ '"' :: rest)
    (hbracket : ∀ rest, s ≠ '[' :: rest) (hbrace : ∀ rest, s ≠ '{' :: rest) :
    readValue room (fuel + 1) s = ReadError.orMalformed (readScalar s) := by
  rw [readValue]
  · exact hquote
  · exact hbracket
  · exact hbrace

theorem readValue_number {n : Number} (h : ReadsBack n) {after : List Char}
    (hafter : EndsValue after) :
    readValue room (fuel + 1) (writeNumber n ++ after) = .ok (.number n, after) := by
  have hread := readScalar_append h hafter
  obtain ⟨c, rest, hwrite, hc⟩ := exists_startsNumber (isNumberText_of_readScalar h)
  -- a number starts with no quote and no bracket
  have hstart {d : Char} (hd : startsNumber d = false) (more : List Char) :
      writeNumber n ++ after ≠ d :: more := by
    rw [hwrite]
    exact fun heq => ne_of_startsNumber hc hd (List.cons.inj heq).1
  rw [readValue_scalar (hstart rfl) (hstart rfl) (hstart rfl), hread]
  rfl

/-- The text of a text, up to its closing quote. -/
theorem writeText_append (s : String) (after : List Char) :
    writeText s ++ after = '"' :: (s.toList.flatMap escapeChar ++ '"' :: after) := by
  rw [writeText, List.append_assoc]
  rfl

theorem readValue_text (s : String) (after : List Char) :
    readValue room (fuel + 1) (writeText s ++ after) = .ok (.text s, after) := by
  rw [writeText_append, readValue, readText_flatMap_escapeChar]
  show Except.ok (Json.text (String.ofList s.toList), after) = _
  rw [String.ofList_toList]

/-- The items of an array are read up to its bracket. -/
theorem readValue_array {items : List Json} {inner after : List Char} (hroom : 0 < room)
    (hinner : StartsValue inner) (h : readItems (room - 1) fuel inner = .ok (items, after)) :
    readValue room (fuel + 1) ('[' :: inner) = .ok (.array items, after) := by
  -- the array is not empty, for an item starts with no closing bracket
  obtain ⟨c, rest, rfl, hspace, hbracket, -⟩ := hinner
  rw [readValue, if_neg (by omega), skipSpace_of_not_isSpace hspace]
  split
  · rename_i heq
    exact absurd (List.cons.inj heq).1 hbracket
  · rw [h]
    rfl

/-- The members of an object are read up to its brace. -/
theorem readValue_object {members : List (String × Json)} {inner after : List Char}
    (hroom : 0 < room) (hinner : StartsValue inner)
    (h : readMembers (room - 1) fuel inner = .ok (members, after)) (hnames : DistinctKeys members) :
    readValue room (fuel + 1) ('{' :: inner) = .ok (.object members, after) := by
  obtain ⟨c, rest, rfl, hspace, -, hbrace⟩ := hinner
  rw [readValue, if_neg (by omega), skipSpace_of_not_isSpace hspace]
  split
  · rename_i heq
    exact absurd (List.cons.inj heq).1 hbrace
  · rw [h]
    show Except.ok (Json.object (ofEntries members), after) = _
    rw [ofEntries_eq_self hnames]

theorem readItems_last {item : Json} {s after : List Char}
    (h : readValue room fuel s = .ok (item, ']' :: after)) :
    readItems room (fuel + 1) s = .ok ([item], after) := by
  rw [readItems, h]
  rfl

theorem readItems_more {item : Json} {items : List Json} {s more after : List Char}
    (h : readValue room fuel s = .ok (item, ',' :: ' ' :: more)) (hmore : skipSpace more = more)
    (hitems : readItems room fuel more = .ok (items, after)) :
    readItems room (fuel + 1) s = .ok (item :: items, after) := by
  have hspace : skipSpace (' ' :: more) = more := by rw [skipSpace_space, hmore]
  have hcomma : skipSpace (',' :: ' ' :: more) = ',' :: ' ' :: more := rfl
  rw [readItems, h, ok_bind]
  simp only [hcomma, hspace, hitems, ok_bind]
  rfl

/-- A member is read up to what follows its value. -/
theorem readMembers_member (name : String) {s : List Char} (hs : skipSpace s = s) :
    readMembers room (fuel + 1) (writeText name ++ ':' :: ' ' :: s) = (do
      let (value, rest) ← readValue room fuel s
      match skipSpace rest with
      | ',' :: more => do
        let (members, after) ← readMembers room fuel (skipSpace more)
        return ((name, value) :: members, after)
      | '}' :: after => return ([(name, value)], after)
      | _ => throw ReadError.malformed) := by
  have hspace : skipSpace (' ' :: s) = s := by rw [skipSpace_space, hs]
  rw [writeText_append, readMembers, readText_flatMap_escapeChar]
  show (do
    let (value, rest) ← readValue room fuel (skipSpace (' ' :: s))
    match skipSpace rest with
    | ',' :: more => do
      let (members, after) ← readMembers room fuel (skipSpace more)
      return ((String.ofList name.toList, value) :: members, after)
    | '}' :: after => return ([(String.ofList name.toList, value)], after)
    | _ => throw ReadError.malformed) = _
  rw [hspace, String.ofList_toList]

theorem readMembers_last {name : String} {value : Json} {s after : List Char}
    (h : readValue room fuel s = .ok (value, '}' :: after)) (hs : skipSpace s = s) :
    readMembers room (fuel + 1) (writeText name ++ ':' :: ' ' :: s)
      = .ok ([(name, value)], after) := by
  rw [readMembers_member name hs, h]
  rfl

theorem readMembers_more {name : String} {value : Json} {members : List (String × Json)}
    {s more after : List Char} (h : readValue room fuel s = .ok (value, ',' :: ' ' :: more))
    (hs : skipSpace s = s) (hmore : skipSpace more = more)
    (hmembers : readMembers room fuel more = .ok (members, after)) :
    readMembers room (fuel + 1) (writeText name ++ ':' :: ' ' :: s)
      = .ok ((name, value) :: members, after) := by
  have hspace : skipSpace (' ' :: more) = more := by rw [skipSpace_space, hmore]
  rw [readMembers_member name hs, h, ok_bind]
  show (do
    let (members, after) ← readMembers room fuel (skipSpace (' ' :: more))
    return ((name, value) :: members, after)) = _
  rw [hspace, hmembers]
  rfl

theorem startsValue_writeItems {items : List Json} (h : AllItems NumberReadsBack items)
    (hitems : items ≠ []) (after : List Char) :
    StartsValue (writeItems .spaced items ++ after) := by
  match items with
  | [] => exact absurd rfl hitems
  | [item] => exact (startsValue_write h.1).append after
  | item :: next :: rest =>
    rw [writeItems, List.append_assoc, List.append_assoc]
    · exact (startsValue_write h.1).append _
    · exact nofun

theorem startsValue_writeMembers {members : List (String × Json)} (hmembers : members ≠ [])
    (after : List Char) : StartsValue (writeMembers .spaced members ++ after) := by
  match members with
  | [] => exact absurd rfl hmembers
  | [(name, j)] => exact ⟨'"', _, rfl, rfl, by decide, by decide⟩
  | (name, j) :: next :: rest => exact ⟨'"', _, rfl, rfl, by decide, by decide⟩

end

mutual

/-- A value is read in front of a comma or a closing bracket. -/
theorem readValue_write {j : Json} (hnumbers : j.All NumberReadsBack)
    (hnames : j.All NamesAreDistinct) {room fuel : Nat} (hdepth : j.depth ≤ room)
    (hfuel : 2 * (j.write .spaced).length ≤ fuel) {after : List Char} (hafter : EndsValue after) :
    readValue room fuel (j.write .spaced ++ after) = .ok (j, after) := by
  -- the text is not empty, so that there is fuel for the first step
  obtain ⟨c, rest, hwrite, -⟩ := startsValue_write hnumbers
  obtain ⟨fuel, rfl⟩ : ∃ smaller, fuel = smaller + 1 := by
    rw [hwrite, List.length_cons] at hfuel
    exact ⟨fuel - 1, by omega⟩
  match j with
  | .null => exact readValue_scalar nofun nofun nofun
  | .bool true => exact readValue_scalar nofun nofun nofun
  | .bool false => exact readValue_scalar nofun nofun nofun
  | .number n => exact readValue_number hnumbers hafter
  | .text s => exact readValue_text s after
  | .array [] =>
    have hroom : room ≠ 0 := by
      simp only [depth] at hdepth
      omega
    show readValue room (fuel + 1) ('[' :: ']' :: after) = _
    rw [readValue, if_neg hroom]
    rfl
  | .array (item :: items) =>
    simp only [depth] at hdepth
    simp only [write, List.length_append, List.length_cons, List.length_nil] at hfuel
    have hinside : itemsDepth (item :: items) ≤ room - 1 := by omega
    -- the brackets pay for the step into the array
    have hrest : 2 * (writeItems .spaced (item :: items)).length + 1 ≤ fuel := by omega
    have hread := readItems_writeItems (List.cons_ne_nil item items) hnumbers.2 hnames.2 hinside
      hrest after
    rw [write, List.cons_append, List.cons_append, List.append_assoc]
    exact readValue_array (by omega) (startsValue_writeItems hnumbers.2 (by simp) _) hread
  | .object [] =>
    have hroom : room ≠ 0 := by
      simp only [depth] at hdepth
      omega
    show readValue room (fuel + 1) ('{' :: '}' :: after) = _
    rw [readValue, if_neg hroom]
    rfl
  | .object (member :: members) =>
    simp only [depth] at hdepth
    simp only [write, List.length_append, List.length_cons, List.length_nil] at hfuel
    have hinside : membersDepth (member :: members) ≤ room - 1 := by omega
    -- the braces pay for the step into the object
    have hrest : 2 * (writeMembers .spaced (member :: members)).length + 1 ≤ fuel := by omega
    have hread := readMembers_writeMembers (List.cons_ne_nil member members) hnumbers.2 hnames.2
      hinside hrest after
    rw [write, List.cons_append, List.cons_append, List.append_assoc]
    exact readValue_object (by omega) (startsValue_writeMembers (by simp) _) hread hnames.1

theorem readItems_writeItems {items : List Json} (hitems : items ≠ [])
    (hnumbers : AllItems NumberReadsBack items) (hnames : AllItems NamesAreDistinct items)
    {room fuel : Nat} (hdepth : itemsDepth items ≤ room)
    (hfuel : 2 * (writeItems .spaced items).length + 1 ≤ fuel) (after : List Char) :
    readItems room fuel (writeItems .spaced items ++ ']' :: after) = .ok (items, after) := by
  obtain ⟨fuel, rfl⟩ : ∃ smaller, fuel = smaller + 1 := ⟨fuel - 1, by omega⟩
  match items with
  | [] => exact absurd rfl hitems
  | [item] =>
    simp only [itemsDepth] at hdepth
    simp only [writeItems] at hfuel
    exact readItems_last (readValue_write hnumbers.1 hnames.1 (by omega) (by omega)
      (endsValue_cons (.inr (.inl rfl)) after))
  | item :: next :: rest =>
    have hsplit : itemsDepth (item :: next :: rest)
        = max item.depth (itemsDepth (next :: rest)) := rfl
    have hwrite : writeItems .spaced (item :: next :: rest)
        = item.write .spaced ++ [',', ' '] ++ writeItems .spaced (next :: rest) := rfl
    rw [hwrite, List.length_append, List.length_append, List.length_cons, List.length_cons,
      List.length_nil] at hfuel
    have hitemDepth : item.depth ≤ room := by omega
    have hitemFuel : 2 * (item.write .spaced).length ≤ fuel := by omega
    -- a comma ends the first item, and the rest is read from behind it
    have hfirst := readValue_write hnumbers.1 hnames.1 hitemDepth hitemFuel
      (endsValue_cons (.inl rfl) (' ' :: (writeItems .spaced (next :: rest) ++ ']' :: after)))
    have hrestDepth : itemsDepth (next :: rest) ≤ room := by omega
    have hrestFuel : 2 * (writeItems .spaced (next :: rest)).length + 1 ≤ fuel := by omega
    have hrest := readItems_writeItems (List.cons_ne_nil next rest) hnumbers.2 hnames.2 hrestDepth
      hrestFuel after
    have hstart := startsValue_writeItems hnumbers.2 (List.cons_ne_nil next rest) (']' :: after)
    rw [hwrite, List.append_assoc, List.append_assoc]
    exact readItems_more hfirst hstart.skipSpace_eq hrest

theorem readMembers_writeMembers {members : List (String × Json)} (hmembers : members ≠ [])
    (hnumbers : AllMembers NumberReadsBack members) (hnames : AllMembers NamesAreDistinct members)
    {room fuel : Nat} (hdepth : membersDepth members ≤ room)
    (hfuel : 2 * (writeMembers .spaced members).length + 1 ≤ fuel) (after : List Char) :
    readMembers room fuel (writeMembers .spaced members ++ '}' :: after)
      = .ok (members, after) := by
  obtain ⟨fuel, rfl⟩ : ∃ smaller, fuel = smaller + 1 := ⟨fuel - 1, by omega⟩
  match members with
  | [] => exact absurd rfl hmembers
  | [(name, j)] =>
    have hwrite : writeMembers .spaced [(name, j)]
        = writeText name ++ [':', ' '] ++ j.write .spaced := rfl
    simp only [membersDepth] at hdepth
    rw [hwrite, List.length_append, List.length_append, List.length_cons, List.length_cons,
      List.length_nil] at hfuel
    have hstart := (startsValue_write hnumbers.1).append ('}' :: after)
    have hvalueDepth : j.depth ≤ room := by omega
    have hvalueFuel : 2 * (j.write .spaced).length ≤ fuel := by omega
    -- the brace of the object ends the last value
    have hvalue := readValue_write hnumbers.1 hnames.1 hvalueDepth hvalueFuel
      (endsValue_cons (.inr (.inr rfl)) after)
    rw [hwrite, List.append_assoc, List.append_assoc]
    exact readMembers_last hvalue hstart.skipSpace_eq
  | (name, j) :: next :: rest =>
    have hsplit : membersDepth ((name, j) :: next :: rest)
        = max j.depth (membersDepth (next :: rest)) := rfl
    have hwrite : writeMembers .spaced ((name, j) :: next :: rest)
        = writeText name ++ [':', ' '] ++ j.write .spaced ++ [',', ' ']
          ++ writeMembers .spaced (next :: rest) := rfl
    rw [hwrite] at hfuel
    simp only [List.length_append, List.length_cons, List.length_nil] at hfuel
    have hvalueDepth : j.depth ≤ room := by omega
    have hvalueFuel : 2 * (j.write .spaced).length ≤ fuel := by omega
    -- a comma ends the first value, and the rest is read from behind it
    have hvalue := readValue_write hnumbers.1 hnames.1 hvalueDepth hvalueFuel
      (endsValue_cons (.inl rfl) (' ' :: (writeMembers .spaced (next :: rest) ++ '}' :: after)))
    have hrestDepth : membersDepth (next :: rest) ≤ room := by omega
    have hrestFuel : 2 * (writeMembers .spaced (next :: rest)).length + 1 ≤ fuel := by omega
    have hrest := readMembers_writeMembers (List.cons_ne_nil next rest) hnumbers.2 hnames.2
      hrestDepth hrestFuel after
    have hstart := (startsValue_write hnumbers.1).append
      (',' :: ' ' :: (writeMembers .spaced (next :: rest) ++ '}' :: after))
    have hmore := startsValue_writeMembers (List.cons_ne_nil next rest) ('}' :: after)
    rw [hwrite]
    simp only [List.append_assoc]
    exact readMembers_more hvalue hstart.skipSpace_eq hmore.skipSpace_eq hrest

end

/-- A value is read back from its text. -/
theorem parse_spacedText {j : Json} (hnumbers : j.All NumberReadsBack)
    (hnames : j.All NamesAreDistinct) (hdepth : j.depth ≤ mostOpen) :
    parse j.spacedText.toList = .ok j := by
  have hfuel : 2 * (j.write .spaced).length ≤ 2 * (j.write .spaced).length + 2 := by omega
  have hread := readValue_write hnumbers hnames hdepth hfuel endsValue_nil
  rw [List.append_nil] at hread
  rw [spacedText, String.toList_ofList, parse, (startsValue_write hnumbers).skipSpace_eq, hread]
  rfl

/-! ## Characters -/

mutual

/-- The texts in a value, the names of members among them. -/
def texts : Json → List String
  | .text s => [s]
  | .array items => itemTexts items
  | .object members => memberTexts members
  | _ => []

def itemTexts : List Json → List String
  | [] => []
  | j :: rest => j.texts ++ itemTexts rest

def memberTexts : List (String × Json) → List String
  | [] => []
  | (name, j) :: rest => name :: (j.texts ++ memberTexts rest)

end

/-- Whether a character is in what has been written for some texts exactly if it is in one of them
    and written as itself. -/
def IsFrom (c : Char) (written : List Char) (texts : List String) : Prop :=
  c ∈ written ↔ escapeChar c = [c] ∧ ∃ s ∈ texts, c ∈ s.toList

section
variable {c : Char} {written more : List Char} {ts us : List String}

theorem IsFrom.append (h : IsFrom c written ts) (hmore : IsFrom c more us) :
    IsFrom c (written ++ more) (ts ++ us) := by
  unfold IsFrom at h hmore ⊢
  rw [List.mem_append, h, hmore, ← and_or_left]
  simp only [List.mem_append, or_and_right, exists_or]

variable (hc : isNotation c = false)
include hc

theorem isFrom_of_isNotation (h : ∀ d ∈ written, isNotation d) : IsFrom c written [] :=
  iff_of_false (not_mem_of_forall_isNotation hc h) fun ⟨_, _, hmem, _⟩ => nomatch hmem

theorem isFrom_writeText (s : String) : IsFrom c (writeText s) [s] := by
  rw [IsFrom, mem_writeText_iff hc]
  simp [and_comm]

theorem IsFrom.append_of_isNotation (h : IsFrom c written ts) (hmore : more.all isNotation) :
    IsFrom c (written ++ more) ts := by
  have happend := h.append (isFrom_of_isNotation hc (List.all_eq_true.1 hmore))
  rwa [List.append_nil] at happend

theorem isFrom_writeName (name : String) :
    IsFrom c (writeText name ++ Spacing.spaced.name) [name] :=
  (isFrom_writeText hc name).append_of_isNotation hc rfl

theorem IsFrom.cons_of_isNotation (h : IsFrom c written ts) {d : Char} (hd : isNotation d) :
    IsFrom c (d :: written) ts :=
  (isFrom_of_isNotation hc (List.forall_mem_singleton.2 hd)).append h

mutual

/-- A character outside the notation is written for those in the texts of the value only. -/
theorem isFrom_write (j : Json) : IsFrom c (j.write .spaced) j.texts := by
  match j with
  | .null => exact isFrom_of_isNotation hc (List.all_eq_true.1 rfl)
  | .bool true => exact isFrom_of_isNotation hc (List.all_eq_true.1 rfl)
  | .bool false => exact isFrom_of_isNotation hc (List.all_eq_true.1 rfl)
  | .number n =>
    exact isFrom_of_isNotation hc fun d hd =>
      isNotation_of_isNumberChar (isNumberChar_of_mem_writeNumber n d hd)
  | .text s => exact isFrom_writeText hc s
  | .array items =>
    exact ((isFrom_writeItems items).cons_of_isNotation hc rfl).append_of_isNotation hc rfl
  | .object members =>
    exact ((isFrom_writeMembers members).cons_of_isNotation hc rfl).append_of_isNotation hc rfl

theorem isFrom_writeItems (items : List Json) :
    IsFrom c (writeItems .spaced items) (itemTexts items) := by
  match items with
  | [] => exact isFrom_of_isNotation hc (List.forall_mem_nil _)
  | [item] =>
    rw [itemTexts, itemTexts, List.append_nil]
    exact isFrom_write item
  | item :: next :: rest =>
    exact ((isFrom_write item).append_of_isNotation hc rfl).append
      (isFrom_writeItems (next :: rest))

theorem isFrom_writeMembers (members : List (String × Json)) :
    IsFrom c (writeMembers .spaced members) (memberTexts members) := by
  match members with
  | [] => exact isFrom_of_isNotation hc (List.forall_mem_nil _)
  | [(name, j)] =>
    rw [memberTexts, memberTexts, List.append_nil]
    exact (isFrom_writeName hc name).append (isFrom_write j)
  | (name, j) :: next :: rest =>
    have hmember := (isFrom_writeName hc name).append (isFrom_write j)
    exact (hmember.append_of_isNotation hc rfl).append (isFrom_writeMembers (next :: rest))

end

end

/-- There is no carriage return in the text of a value. -/
theorem return_not_mem_write (j : Json) : '\r' ∉ j.write .spaced := fun h =>
  nomatch ((isFrom_write rfl j).1 h).1

end BlockTemplate.Json
