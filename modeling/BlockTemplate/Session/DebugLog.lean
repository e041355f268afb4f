import BlockTemplate.Callback.Dump
import BlockTemplate.OrderedMap
import BlockTemplate.Value.Sharing

/-!
# Debug log

With debugging on, the first parse of a block records the variables: in the order of their names,
arrays by their elements, and long texts cut off.
-/

namespace BlockTemplate

/-- The variables that were recorded for a block. -/
abbrev VariableTable := List (String × Value)

/-- The recorded tables by file and block. -/
structure DebugLog where
  files : List (String × List (String × VariableTable))
deriving Inhabited

namespace DebugLog

/-- Nothing has been recorded. -/
def empty : DebugLog := ⟨[]⟩

/-- Longer texts are cut off. -/
def longestText : Nat := 60

/-- A value in a table: a long text is cut off. -/
def shortened : Value → Value
  | .text s =>
    if longestText < s.length then .text (String.ofList (s.toList.take longestText) ++ "...")
    else .text s
  | v => v

/-- The name of an element of an array. -/
def elementName (name : String) (key : Key) : String := name ++ "." ++ key.plain

/-- The rows of a table for a variable: one for each element of an array, else one. -/
def rows (name : String) (v : Value) : VariableTable :=
  match v.entries? with
  | some entries => entries.map fun (key, item) => (elementName name key, shortened item)
  | none => [(name, shortened v)]

/-- The table of some variables. -/
def tableOf (vars : List (Key × Value)) : VariableTable :=
  ofEntries ((sortedBy (·.1.plain) vars).flatMap fun (name, v) => rows name.plain v)

/-- The tables of a file by block. -/
def tables (log : DebugLog) (file : String) : List (String × VariableTable) :=
  (valueOf? file log.files).getD []

/-- Record the variables for a block, unless that has been done before. -/
def record (log : DebugLog) (file block : String) (vars : List (Key × Value)) : DebugLog :=
  if (valueOf? block (log.tables file)).isSome then log
  else ⟨upsert file (upsert block (tableOf vars) (log.tables file)) log.files⟩

/-- Bring a shared mapping up to date in all tables. -/
def share (log : DebugLog) (origin : Origin) (contents : List (Key × Value)) : DebugLog :=
  ⟨log.files.map fun (file, tables) =>
    (file, tables.map fun (block, table) => (block, shareAttributes origin contents table))⟩

/-- A row as list items: one for each element of an array, else one. -/
def rowItems (name : String) (v : Value) : List String :=
  match v.entries? with
  | some entries => entries.map fun (key, item) => item.listItem (elementName name key)
  | none => [v.listItem name]

/-- The report on a block of a file. -/
def blockReport (file block : String) (table : VariableTable) : String :=
  let title := file ++ " / " ++ String.ofList (replaceAll ['.'] [' ', '/', ' '] block.toList)
  "<h2>" ++ escapeHtml title ++ "</h2><ul>"
    ++ String.join (table.flatMap fun (name, v) => rowItems name v) ++ "</ul>"

/-- The report on everything that has been recorded for a file. -/
def report (log : DebugLog) (file : String) : String :=
  "<h1>" ++ escapeHtml file ++ "</h1>"
    ++ String.join ((log.tables file).map fun (block, table) => blockReport file block table)

end DebugLog

end BlockTemplate
