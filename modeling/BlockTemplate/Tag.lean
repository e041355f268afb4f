import BlockTemplate.Text.Pieces
import BlockTemplate.Text.Word

/-!
# Tags in text

Literal text holds tags under a strict rule (`tag?`), so that the braces of scripts and style sheets
are left alone. Plain strings, such as the path of an include directive or a quoted operand, hold
embedded tags under a looser one (`embeddedTag?`).
-/

namespace BlockTemplate

/-- The first character of a tag: a capital, a digit, an underscore or a dollar sign. -/
def isTagStart (c : Char) : Bool := c.isUpper || c.isDigit || c == '_' || c == '$'

/-- The last character before the closing brace of a tag. -/
def isTagEnd (c : Char) : Bool := isWord c || c == ')'

/-- Read to the closing brace of a tag with `depth` open tags around it, `last` being the character
    before the text: the characters up to that brace, and what follows it. Every brace that opens
    must open a tag, and every brace that closes must be able to close one. -/
def tagBody? (depth : Nat) (last : Char) : List Char → Option (List Char × List Char)
  | [] => none
  | c :: rest =>
    if c = '{' then
      if (rest.head?.map isTagStart).getD false then
        (tagBody? (depth + 1) c rest).map fun (body, after) => (c :: body, after)
      else none
    else if c = '}' then
      if isTagEnd last then
        match depth with
        | 0 => some ([], rest)
        | depth + 1 => (tagBody? depth c rest).map fun (body, after) => (c :: body, after)
      else none
    else (tagBody? depth c rest).map fun (body, after) => (c :: body, after)

/-- The tag at the start of a text: what stands between its braces, and what follows it. -/
def tag? : List Char → Option (List Char × List Char)
  | '{' :: rest =>
    if (rest.head?.map isTagStart).getD false then tagBody? 0 '{' rest else none
  | _ => none

/-- The end of the tag that starts at a position, counted from the start of the text. -/
def tagEnd? (text : List Char) (start : Nat) : Option Nat :=
  (tag? (text.drop start)).map fun (_, after) => text.length - after.length

/-- Literal text cut into tags and literal pieces. -/
def tagPieces (text : List Char) : List (Piece (List Char)) := cutPieces tag? text

/-- A character of the name at the start of an embedded tag. -/
def isEmbeddedName (c : Char) : Bool := isWord c || c == '.' || c == '-'

/-- The characters up to the next closing brace on the same line, and what follows the brace. -/
def upToBrace? : List Char → Option (List Char × List Char)
  | [] => none
  | c :: rest =>
    if c = '}' then some ([], rest)
    else if c = '\n' then none
    else (upToBrace? rest).map fun (body, after) => (c :: body, after)

/-- The callbacks of an embedded tag: a bar, then at least one character, all on one line. -/
def embeddedCalls? : List Char → Option (List Char × List Char)
  | '|' :: c :: rest =>
    if c = '\n' then none
    else (upToBrace? rest).map fun (body, after) => ('|' :: c :: body, after)
  | _ => none

/-- The name of an embedded tag, which may start with a dollar sign, and the rest. -/
def embeddedName? (s : List Char) : Option (List Char × List Char) :=
  let (sign, afterSign) := match s with
    | '$' :: rest => (['$'], rest)
    | rest => ([], rest)
  let name := afterSign.takeWhile isEmbeddedName
  if name.isEmpty then none else some (sign ++ name, afterSign.dropWhile isEmbeddedName)

/-- The embedded tag at the start of a text: what stands between its braces, and what follows it. -/
def embeddedTag? : List Char → Option (List Char × List Char)
  | '{' :: s =>
    match embeddedName? s with
    | none => none
    | some (name, '}' :: after) => some (name, after)
    | some (name, rest) => (embeddedCalls? rest).map fun (calls, after) => (name ++ calls, after)
  | _ => none

/-- A plain string cut into embedded tags and literal pieces. -/
def embeddedPieces (text : List Char) : List (Piece (List Char)) := cutPieces embeddedTag? text

/-! ## Recognizers lose nothing -/

theorem eq_of_tagBody? {depth : Nat} {last : Char} {s body after : List Char}
    (h : tagBody? depth last s = some (body, after)) : s = body ++ '}' :: after := by
  fun_induction tagBody? depth last s generalizing body <;> simp_all
  all_goals grind

theorem eq_of_tag? {s body after : List Char} (h : tag? s = some (body, after)) :
    s = '{' :: body ++ '}' :: after := by
  unfold tag? at h
  split at h
  · split at h
    · rw [eq_of_tagBody? h]; rfl
    · exact nomatch h
  · exact nomatch h

theorem eq_of_upToBrace? {s body after : List Char} (h : upToBrace? s = some (body, after)) :
    s = body ++ '}' :: after := by
  fun_induction upToBrace? s generalizing body <;> simp_all
  all_goals grind

theorem eq_of_embeddedCalls? {s body after : List Char}
    (h : embeddedCalls? s = some (body, after)) : s = body ++ '}' :: after := by
  unfold embeddedCalls? at h
  split at h
  · split at h
    · exact nomatch h
    · simp only [Option.map_eq_some_iff, Prod.mk.injEq, Prod.exists] at h
      obtain ⟨b, a, hb, rfl, rfl⟩ := h
      rw [eq_of_upToBrace? hb]; rfl
  · exact nomatch h

theorem eq_of_embeddedName? {s name rest : List Char}
    (h : embeddedName? s = some (name, rest)) : s = name ++ rest := by
  unfold embeddedName? at h
  grind [List.takeWhile_append_dropWhile]

theorem eq_of_embeddedTag? {s body after : List Char}
    (h : embeddedTag? s = some (body, after)) : s = '{' :: body ++ '}' :: after := by
  unfold embeddedTag? at h
  split at h
  · rename_i s
    split at h
    · exact nomatch h
    · rename_i name rest hn
      simp only [Option.some.injEq, Prod.mk.injEq] at h
      obtain ⟨rfl, rfl⟩ := h
      rw [eq_of_embeddedName? hn]; rfl
    · rename_i name rest _ hn
      simp only [Option.map_eq_some_iff, Prod.mk.injEq, Prod.exists] at h
      obtain ⟨b, a, hb, rfl, rfl⟩ := h
      rw [eq_of_embeddedName? hn, eq_of_embeddedCalls? hb]
      simp
  · exact nomatch h

end BlockTemplate
