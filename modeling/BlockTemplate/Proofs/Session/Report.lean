import BlockTemplate.Proofs.Json.Value
import BlockTemplate.Proofs.Text.Html
import BlockTemplate.Session.DebugLog
import Mathlib

/-!
# The markup of a report

A report puts names, keys and values between tags of its own. Names, keys and most values are
escaped, and numbers and numeric texts hold no bracket. An object is listed by its class and its
JSON form as they are, so that the brackets in them become markup of the report.

The markup of a text is read off the text alone, as whoever shows it does. It is compared with the
tags of an empty report of as many rows, and the brackets that are too many are counted.

## Key results

- `HasMarkup.markupOf_eq_iff`: a text has the markup of its own only if no piece brings brackets
- `Value.hasMarkup_inListing`: what brings brackets into a row
- `markupOf_report_and_dump`: the markup of reports and listings
-/

namespace BlockTemplate

/-! ## Markup -/

/-- Whether a character opens or closes a tag. -/
def isAngle (c : Char) : Bool := c == '<' || c == '>'

theorem isAngle_eq_false_iff {c : Char} : isAngle c = false ↔ c ≠ '<' ∧ c ≠ '>' := by
  simp [isAngle]

/-- A character with a property that no bracket has is none. -/
theorem isAngle_eq_false_of_holds {p : Char → Bool} (hopen : p '<' = false) (hclose : p '>' = false)
    {c : Char} (hc : p c) : isAngle c = false := by
  rw [isAngle_eq_false_iff]
  constructor <;> rintro rfl
  · exact nomatch hopen.symm.trans hc
  · exact nomatch hclose.symm.trans hc

/-- The markup in a text, from within a tag or from outside of one: the brackets, and what stands
    behind an opening one up to the next closing one. -/
def markupFrom (inTag : Bool) : List Char → List Char
  | [] => []
  | c :: rest =>
    if isAngle c then c :: markupFrom (c == '<') rest
    else if inTag then c :: markupFrom true rest
    else markupFrom false rest

/-- The markup in a text. -/
def markupOf (s : String) : String := String.ofList (markupFrom false s.toList)

/-- The number of brackets in a text. -/
def angles (s : String) : Nat := s.toList.countP isAngle

@[simp] theorem angles_append (s t : String) : angles (s ++ t) = angles s + angles t := by
  rw [angles, String.toList_append, List.countP_append]
  rfl

theorem countP_markupFrom (inTag : Bool) (s : List Char) :
    (markupFrom inTag s).countP isAngle = s.countP isAngle := by
  induction s generalizing inTag with
  | nil => rfl
  | cons c rest ih =>
    rw [markupFrom]
    split
    · rename_i hc
      rw [List.countP_cons_of_pos hc, List.countP_cons_of_pos hc, ih]
    · rename_i hc
      split
      · rw [List.countP_cons_of_neg hc, List.countP_cons_of_neg hc, ih]
      · rw [List.countP_cons_of_neg hc, ih]

/-- No bracket gets lost. -/
@[simp] theorem angles_markupOf (s : String) : angles (markupOf s) = angles s := by
  rw [angles, markupOf, String.toList_ofList, countP_markupFrom]
  rfl

/-- Whether a text has some markup of its own, and further brackets unless a condition holds. -/
structure HasMarkup (markup : String) (clean : Prop) (s : String) : Prop where
  /-- without further brackets the markup is read, and what follows the text as if it stood alone -/
  own : clean → ∀ rest,
    markupFrom false (s.toList ++ rest) = markup.toList ++ markupFrom false rest
  least : angles markup ≤ angles s
  foreign : ¬clean → angles markup < angles s

namespace HasMarkup

variable {markup more s t : String} {clean others : Prop}

/-- The markup is that of the text alone exactly if the condition holds. -/
theorem markupOf_eq_iff (h : HasMarkup markup clean s) : markupOf s = markup ↔ clean := by
  constructor
  · intro heq
    by_contra hclean
    -- the markup of a text has all of its brackets, so that one too many shows in it
    have hlt := h.foreign hclean
    rw [← heq, angles_markupOf] at hlt
    exact Nat.lt_irrefl _ hlt
  · intro hclean
    have hown := h.own hclean []
    rw [List.append_nil, markupFrom, List.append_nil] at hown
    rw [markupOf, hown, String.ofList_toList]

theorem congr (h : HasMarkup markup clean s) (hiff : clean ↔ others) :
    HasMarkup markup others s := propext hiff ▸ h

theorem append (h : HasMarkup markup clean s) (hmore : HasMarkup more others t) :
    HasMarkup (markup ++ more) (clean ∧ others) (s ++ t) where
  own := fun ⟨hclean, hothers⟩ rest => by
    rw [String.toList_append, String.toList_append, List.append_assoc, List.append_assoc,
      h.own hclean, hmore.own hothers]
  least := by
    have hleast := h.least
    have hleastMore := hmore.least
    rw [angles_append, angles_append]
    omega
  foreign := fun hnot => by
    have hleast := h.least
    have hleastMore := hmore.least
    rw [angles_append, angles_append]
    -- the bracket that is too many is in the first text or, if there is none, in the second
    by_cases hclean : clean
    · have hlt := hmore.foreign fun hothers => hnot ⟨hclean, hothers⟩
      omega
    · have hlt := h.foreign hclean
      omega

/-- A fixed text, whose markup can be read off in front of every other text. -/
theorem of_literal (h : ∀ rest, markupFrom false (s.toList ++ rest)
    = markup.toList ++ markupFrom false rest) : HasMarkup markup True s where
  own := fun _ => h
  least := by
    have hall := h []
    rw [List.append_nil, markupFrom, List.append_nil] at hall
    rw [← angles_markupOf s, markupOf, hall, String.ofList_toList]
  foreign := fun hnot => absurd trivial hnot

/-- A text in which every bracket is one too many. -/
theorem of_text (s : String) : HasMarkup "" (∀ c ∈ s.toList, isAngle c = false) s where
  own := fun h rest => by
    generalize s.toList = chars at h ⊢
    induction chars with
    | nil => rfl
    | cons c chars ih =>
      rw [List.forall_mem_cons] at h
      rw [List.cons_append, markupFrom, if_neg (by rw [h.1]; exact Bool.false_ne_true),
        if_neg Bool.false_ne_true, ih h.2]
  least := Nat.zero_le _
  foreign := fun hnot => by
    push Not at hnot
    obtain ⟨c, hc, hangle⟩ := hnot
    exact List.countP_pos_iff.2 ⟨c, hc, Bool.of_not_eq_false hangle⟩

theorem of_plain (h : ∀ c ∈ s.toList, isAngle c = false) : HasMarkup "" True s :=
  (of_text s).congr (iff_of_true h trivial)

theorem join {α : Type} {rows : List α} {markup text : α → String} {clean : α → Prop}
    (h : ∀ row ∈ rows, HasMarkup (markup row) (clean row) (text row)) :
    HasMarkup (String.join (rows.map markup)) (∀ row ∈ rows, clean row)
      (String.join (rows.map text)) := by
  induction rows with
  | nil => exact (of_literal fun _ => rfl).congr (iff_of_true trivial (List.forall_mem_nil _))
  | cons row rows ih =>
    rw [List.forall_mem_cons] at h
    rw [List.map_cons, List.map_cons, String.join_cons, String.join_cons]
    exact (h.1.append (ih h.2)).congr List.forall_mem_cons.symm

theorem of_escapeHtml (s : String) : HasMarkup "" True (escapeHtml s) := by
  refine of_plain fun c hc => ?_
  rw [escapeHtml, String.toList_ofList] at hc
  rw [isAngle_eq_false_iff]
  constructor <;> rintro rfl <;> exact not_mem_escapeHtmlChars (by decide) _ hc

end HasMarkup

/-! ## Rows -/

/-- Whether a value brings no bracket into a row. Only objects can: by the name of their class, and
    by the names and texts in their JSON form. -/
def Value.BringsNoAngle : Value → Prop
  | .object identity className attributes items =>
    ∀ s ∈ className :: (Value.object identity className attributes items).toJson.texts,
      ∀ c ∈ s.toList, isAngle c = false
  | _ => True

/-- A bracket is written as itself and is no part of the notation. -/
theorem escapeChar_of_isAngle {c : Char} (h : isAngle c) :
    Json.isNotation c = false ∧ Json.escapeChar c = [c] := by
  rw [isAngle, Bool.or_eq_true, beq_iff_eq, beq_iff_eq] at h
  rcases h with rfl | rfl <;> exact ⟨rfl, rfl⟩

/-- The brackets in the text of a JSON value are those of the texts in it. -/
theorem forall_isAngle_spacedText_iff (j : Json) :
    (∀ c ∈ j.spacedText.toList, isAngle c = false)
      ↔ ∀ s ∈ j.texts, ∀ c ∈ s.toList, isAngle c = false := by
  rw [Json.spacedText, String.toList_ofList]
  constructor
  · intro h s hs c hc
    by_contra hangle
    have hangle := Bool.of_not_eq_false hangle
    -- neither does JSON escape a bracket, nor does it need one for itself
    obtain ⟨hchar, hplain⟩ := escapeChar_of_isAngle hangle
    have hmem := (Json.isFrom_write hchar j).2 ⟨hplain, s, hs, hc⟩
    exact absurd hangle (Bool.eq_false_iff.1 (h c hmem))
  · intro h c hc
    by_contra hangle
    have hchar := (escapeChar_of_isAngle (Bool.of_not_eq_false hangle)).1
    obtain ⟨-, s, hs, hmem⟩ := (Json.isFrom_write hchar j).1 hc
    exact hangle (h s hs c hmem)

/-- What a row shows of a value has no markup of its own. -/
theorem Value.hasMarkup_inListing (v : Value) : HasMarkup "" v.BringsNoAngle v.inListing := by
  have hquoted (s : String) :
      HasMarkup "" True ("&quot;" ++ escapeHtml s ++ "&quot;") := by
    have hquote : HasMarkup "" True "&quot;" := .of_literal fun _ => rfl
    exact ((hquote.append (.of_escapeHtml s)).append hquote).congr (by simp)
  -- only the JSON of an object is not escaped
  cases v with
  | null => exact hquoted _
  | bool b => exact hquoted _
  | number n =>
    exact .of_plain fun c hc =>
      isAngle_eq_false_of_holds rfl rfl (n.isNumberChar_of_mem_shown c hc)
  | text s =>
    rw [inListing]
    split
    · rename_i hnumeric
      obtain ⟨t, ht⟩ := Option.isSome_iff_exists.1 (Option.isSome_map.symm.trans hnumeric)
      exact .of_plain fun c hc =>
        isAngle_eq_false_of_holds rfl rfl (NumericText.isNumericChar_of_parse? ht c hc)
    · exact hquoted s
  | sequence origin items => exact hquoted _
  | mapping origin entries => exact hquoted _
  | object identity className attributes items =>
    have hblank : HasMarkup "" True " " := .of_literal fun _ => rfl
    have hjson := (HasMarkup.of_text _).congr
      (forall_isAngle_spacedText_iff (Value.object identity className attributes items).toJson)
    refine (((HasMarkup.of_text className).append hblank).append hjson).congr ?_
    rw [BringsNoAngle, List.forall_mem_cons, and_true]

/-- The markup of a row. -/
def rowMarkup : String := "<li><em></em></li>"

theorem Value.hasMarkup_listItem (name : String) (v : Value) :
    HasMarkup rowMarkup v.BringsNoAngle (v.listItem name) := by
  have hopen : HasMarkup "<li>" True "<li>\x7b" := .of_literal fun _ => rfl
  have harrow : HasMarkup "<em>" True "\x7d =&gt; <em>" := .of_literal fun _ => rfl
  have hclose : HasMarkup "</em></li>" True "</em></li>" := .of_literal fun _ => rfl
  have hname := (hopen.append (.of_escapeHtml name)).append harrow
  exact ((hname.append v.hasMarkup_inListing).append hclose).congr (by simp)

/-- The markup of so many rows. -/
def rowsMarkup (count : Nat) : String := String.join (List.replicate count rowMarkup)

theorem hasMarkup_rows (rows : VariableTable) :
    HasMarkup (rowsMarkup rows.length) (∀ row ∈ rows, row.2.BringsNoAngle)
      (String.join (rows.map fun row => row.2.listItem row.1)) := by
  have hrow (row : String × Value) (_ : row ∈ rows) := row.2.hasMarkup_listItem row.1
  have hrows := HasMarkup.join hrow
  rwa [List.map_const'] at hrows

/-! ## Reports -/

namespace DebugLog

/-- The rows that a report shows of a table: one for each element of an array, else one. -/
def shownRows (table : VariableTable) : VariableTable :=
  table.flatMap fun (name, v) =>
    match v.entries? with
    | some entries => entries.map fun (key, item) => (elementName name key, item)
    | none => [(name, v)]

theorem flatMap_rowItems (table : VariableTable) :
    (table.flatMap fun (name, v) => rowItems name v)
      = (shownRows table).map fun row => row.2.listItem row.1 := by
  rw [shownRows, List.map_flatMap]
  congr 1
  funext ⟨name, v⟩
  dsimp only [rowItems]
  cases v.entries? with
  | none => rfl
  | some entries =>
    dsimp only
    rw [List.map_map]
    rfl

/-- The markup of a block with so many rows. -/
def blockMarkup (rows : Nat) : String := "<h2></h2><ul>" ++ rowsMarkup rows ++ "</ul>"

/-- The markup of a report on blocks with so many rows. -/
def reportMarkup (rows : List Nat) : String :=
  "<h1></h1>" ++ String.join (rows.map blockMarkup)

theorem hasMarkup_blockReport (file block : String) (table : VariableTable) :
    HasMarkup (blockMarkup (shownRows table).length)
      (∀ row ∈ shownRows table, row.2.BringsNoAngle) (blockReport file block table) := by
  have hopen : HasMarkup "<h2>" True "<h2>" := .of_literal fun _ => rfl
  have hlist : HasMarkup "</h2><ul>" True "</h2><ul>" := .of_literal fun _ => rfl
  have hclose : HasMarkup "</ul>" True "</ul>" := .of_literal fun _ => rfl
  rw [blockReport, flatMap_rowItems]
  have htitle (title : String) := (hopen.append (.of_escapeHtml title)).append hlist
  exact (((htitle _).append (hasMarkup_rows _)).append hclose).congr (by simp)

theorem hasMarkup_report (log : DebugLog) (file : String) :
    HasMarkup (reportMarkup ((log.tables file).map fun table => (shownRows table.2).length))
      (∀ table ∈ log.tables file, ∀ row ∈ shownRows table.2, row.2.BringsNoAngle)
      (log.report file) := by
  have hopen : HasMarkup "<h1>" True "<h1>" := .of_literal fun _ => rfl
  have hclose : HasMarkup "</h1>" True "</h1>" := .of_literal fun _ => rfl
  have hblock (table : String × VariableTable) (_ : table ∈ log.tables file) :=
    hasMarkup_blockReport file table.1 table.2
  have htitle := (hopen.append (.of_escapeHtml file)).append hclose
  rw [report, reportMarkup, List.map_map]
  exact (htitle.append (.join hblock)).congr (by simp)

end DebugLog

/-! ## Listings -/

namespace Value

mutual

/-- A listing has rows of texts only. -/
theorem exists_of_mem_dumpItems {level : Nat} {path : String} {v : Value} {item : String}
    (h : item ∈ v.dumpItems level path) : ∃ name s, item = (Value.text s).listItem name := by
  match v with
  | .text s =>
    rw [dumpItems] at h
    split at h
    · exact nomatch h
    · exact ⟨path, s, List.mem_singleton.1 h⟩
  | .sequence origin items =>
    rw [dumpItems] at h
    split at h
    · exact nomatch h
    · obtain ⟨entry, hentry, hitem⟩ := List.mem_flatMap.1 h
      exact exists_of_mem_dumpPositions (List.mem_mergeSort.1 hentry) hitem
  | .mapping origin entries =>
    rw [dumpItems] at h
    split at h
    · exact nomatch h
    · obtain ⟨entry, hentry, hitem⟩ := List.mem_flatMap.1 h
      exact exists_of_mem_dumpEntries (List.mem_mergeSort.1 hentry) hitem
  | .null | .bool _ | .number _ | .object .. => exact nomatch h

theorem exists_of_mem_dumpPositions {level start : Nat} {path : String} {items : List Value}
    {entry : String × List String} (h : entry ∈ dumpPositions level path start items)
    {item : String} (hitem : item ∈ entry.2) :
    ∃ name s, item = (Value.text s).listItem name := by
  match items with
  | [] => exact nomatch h
  | v :: rest =>
    rcases List.mem_cons.1 h with rfl | h
    · exact exists_of_mem_dumpItems hitem
    · exact exists_of_mem_dumpPositions h hitem

theorem exists_of_mem_dumpEntries {level : Nat} {path : String} {entries : List (Key × Value)}
    {entry : String × List String} (h : entry ∈ dumpEntries level path entries)
    {item : String} (hitem : item ∈ entry.2) :
    ∃ name s, item = (Value.text s).listItem name := by
  match entries with
  | [] => exact nomatch h
  | (key, v) :: rest =>
    rcases List.mem_cons.1 h with rfl | h
    · exact exists_of_mem_dumpItems hitem
    · exact exists_of_mem_dumpEntries h hitem

end

/-- The markup of a listing of so many texts. -/
def dumpMarkup (rows : Nat) : String := "<ul class=\"dump\">" ++ rowsMarkup rows ++ "</ul>"

theorem hasMarkup_dump (path : String) (v : Value) :
    HasMarkup (dumpMarkup (v.dumpItems 0 path).length) True (v.dump path) := by
  have hopen : HasMarkup "<ul class=\"dump\">" True "<ul class=\"dump\">" :=
    .of_literal fun _ => rfl
  have hclose : HasMarkup "</ul>" True "</ul>" := .of_literal fun _ => rfl
  have hitem (item : String) (hmem : item ∈ v.dumpItems 0 path) :
      HasMarkup rowMarkup True item := by
    -- objects, which could bring brackets, are not listed
    obtain ⟨name, s, rfl⟩ := exists_of_mem_dumpItems hmem
    exact (Value.text s).hasMarkup_listItem name
  have hitems := HasMarkup.join hitem
  rw [List.map_const', List.map_id'] at hitems
  exact ((hopen.append hitems).append hclose).congr (by simp)

end Value

/-- The markup of a report is its own exactly if no object in its rows brings brackets. What is
    given as a file, a block, a name or a key never does, nor does any other value. A listing of the
    texts in a value has its own markup whatever the value is. -/
theorem markupOf_report_and_dump (log : DebugLog) (file path : String) (v : Value) :
    (markupOf (log.report file)
        = DebugLog.reportMarkup ((log.tables file).map fun table =>
            (DebugLog.shownRows table.2).length)
      ↔ ∀ table ∈ log.tables file, ∀ row ∈ DebugLog.shownRows table.2, row.2.BringsNoAngle)
      ∧ markupOf (v.dump path) = Value.dumpMarkup (v.dumpItems 0 path).length :=
  ⟨(log.hasMarkup_report file).markupOf_eq_iff, (v.hasMarkup_dump path).markupOf_eq_iff.2 trivial⟩

/-- A log in which an object with a tag in one of its texts has been recorded. -/
def taggedLog : DebugLog :=
  DebugLog.empty.record "page" "MAIN" [(.text "X", .object 0 "Note" [("text", .text "<b>")] none)]

set_option maxRecDepth 4000 in
/-- The tag in the text of an object becomes one of the report. -/
theorem markupOf_report_ne_of_object :
    taggedLog.report "page" = "<h1>page</h1><h2>page / MAIN</h2><ul><li>\x7bX\x7d =&gt; "
        ++ "<em>Note \x7b\"text\": \"<b>\"\x7d</em></li></ul>"
      ∧ markupOf (taggedLog.report "page")
        ≠ DebugLog.reportMarkup ((taggedLog.tables "page").map fun table =>
            (DebugLog.shownRows table.2).length) := by
  have hmarkup : markupOf (taggedLog.report "page")
      = "<h1></h1><h2></h2><ul><li><em><b></em></li></ul>" := by cbv
  have hown : DebugLog.reportMarkup ((taggedLog.tables "page").map fun table =>
      (DebugLog.shownRows table.2).length)
      = "<h1></h1><h2></h2><ul><li><em></em></li></ul>" := by cbv
  refine ⟨by cbv, ?_⟩
  rw [hmarkup, hown]
  decide

end BlockTemplate
