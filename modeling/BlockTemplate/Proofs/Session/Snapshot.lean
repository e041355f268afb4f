import BlockTemplate.Proofs.Session.Operation
import BlockTemplate.Proofs.Value.Apart
import BlockTemplate.Template.Compile
import Mathlib

/-!
# Recorded tables

A table that has been recorded for a block is never recorded again, and it keeps its rows. What the
rows hold is the variables' own mappings, though: a dotted assignment that changes such a mapping
changes it in the tables as well. So a recorded table stays as it is as long as no assignment goes
into a mapping that is in it.

## Key results

- `Session.grows_perform`: what an operation does to the tables of a file
- `table_performAll`: a recorded table after any operations
- `table_performAll_ne_of_nested`: an assignment into a recorded mapping changes the table
-/

namespace BlockTemplate

/-- A mapping that is changed, with its entries afterwards. -/
abbrev MappingChange := Origin × List (Key × Value)

/-- A value after some changes. -/
def Value.after (changes : List MappingChange) (v : Value) : Value :=
  changes.foldl (fun v change => v.share change.1 change.2) v

/-- Whether none of some changes is one of a mapping in a value. -/
def Value.Untouched (changes : List MappingChange) (v : Value) : Prop :=
  ∀ change ∈ changes, change.1 ∉ v.origins

/-- A table after some changes. -/
def VariableTable.after (changes : List MappingChange) (table : VariableTable) : VariableTable :=
  mapValues (Value.after changes) table

/-- Whether none of some changes is one of a mapping in a table. -/
def VariableTable.Untouched (changes : List MappingChange) (table : VariableTable) : Prop :=
  ∀ row ∈ table, row.2.Untouched changes

/-! ## Tables after changes -/

section
variable {changes : List MappingChange} {table : VariableTable}

/-- A value without a changed mapping stays as it is. -/
theorem Value.after_eq_self {v : Value} (h : v.Untouched changes) : v.after changes = v := by
  induction changes with
  | nil => rfl
  | cons change rest ih =>
    rw [Untouched, List.forall_mem_cons] at h
    rw [after, List.foldl_cons, v.share_eq_self change.2 h.1]
    exact ih h.2

theorem Value.after_append (first second : List MappingChange) (v : Value) :
    v.after (first ++ second) = (v.after first).after second :=
  List.foldl_append

/-- Changes keep the names of the rows in their order. -/
theorem VariableTable.map_fst_after (changes : List MappingChange) (table : VariableTable) :
    (table.after changes).map (·.1) = table.map (·.1) := by
  rw [after, mapValues, List.map_map]
  rfl

/-- A row without a changed mapping stays in the table. -/
theorem VariableTable.mem_after {row : String × Value} (hrow : row ∈ table)
    (h : row.2.Untouched changes) : row ∈ table.after changes :=
  List.mem_map.2 ⟨row, hrow, Prod.ext rfl (Value.after_eq_self h)⟩

/-- A table without a changed mapping stays as it is. -/
theorem VariableTable.after_eq_self (h : table.Untouched changes) : table.after changes = table :=
  mapValues_eq_self fun row hrow => Value.after_eq_self (h row hrow)

theorem VariableTable.after_append (first second : List MappingChange) (table : VariableTable) :
    table.after (first ++ second) = VariableTable.after second (table.after first) := by
  rw [after, after, after, mapValues_mapValues]
  exact congrArg (mapValues · table) (funext fun v => v.after_append first second)

theorem shareAttributes_eq_after (change : MappingChange) (table : VariableTable) :
    shareAttributes change.1 change.2 table = table.after [change] := by
  induction table with
  | nil => rfl
  | cons row rest ih =>
    rw [shareAttributes, ih]
    rfl

end

/-! ## The log -/

namespace DebugLog

/-- Whether the tables of all files are those of an earlier log after some changes, with others
    behind them. -/
def Grows (changes : List MappingChange) (log log' : DebugLog) : Prop :=
  ∀ file, ∃ added,
    log'.tables file = mapValues (VariableTable.after changes) (log.tables file) ++ added

section
variable {log log' log'' : DebugLog}

theorem Grows.of_append {file : String} {added : List (String × VariableTable)}
    (h : log'.tables file = log.tables file ++ added) :
    ∃ added, log'.tables file = mapValues (VariableTable.after []) (log.tables file) ++ added := by
  refine ⟨added, ?_⟩
  rw [h, mapValues_eq_self fun _ _ => VariableTable.after_eq_self fun _ _ => List.forall_mem_nil _]

theorem Grows.refl (log : DebugLog) : log.Grows [] log :=
  fun _ => Grows.of_append (List.append_nil _).symm

/-- Later changes apply to what has been added as well. -/
theorem Grows.trans {first second : List MappingChange} (h : log.Grows first log')
    (h' : log'.Grows second log'') : log.Grows (first ++ second) log'' := by
  intro file
  obtain ⟨added, hadded⟩ := h file
  obtain ⟨added', hadded'⟩ := h' file
  refine ⟨mapValues (VariableTable.after second) added ++ added', ?_⟩
  rw [hadded', hadded, mapValues_append, mapValues_mapValues, List.append_assoc]
  exact congrArg (mapValues · (log.tables file) ++ _)
    (funext fun table => (table.after_append first second).symm)

theorem grows_share (log : DebugLog) (change : MappingChange) :
    log.Grows [change] (log.share change.1 change.2) := by
  intro file
  refine ⟨[], ?_⟩
  have hfiles : (log.share change.1 change.2).files
      = mapValues (mapValues (shareAttributes change.1 change.2)) log.files := rfl
  rw [tables, tables, hfiles, valueOf?_mapValues, List.append_nil]
  cases valueOf? file log.files with
  | none => rfl
  | some tables =>
    exact congrArg (mapValues · tables) (funext fun table => shareAttributes_eq_after change table)

/-- A table is recorded behind the ones that there are. -/
theorem grows_record (log : DebugLog) (file block : String) (vars : List (Key × Value)) :
    log.Grows [] (log.record file block vars) := by
  intro other
  cases hvalue : valueOf? block (log.tables file) with
  | some table =>
    rw [record, hvalue]
    exact Grows.of_append (List.append_nil _).symm
  | none =>
    by_cases hfile : file = other
    · have hadded : (log.record file block vars).tables other
          = log.tables other ++ [(block, tableOf vars)] := by
        subst hfile
        rw [← upsert_of_new (not_beq_of_valueOf?_eq_none hvalue), record, hvalue, tables]
        simp
      exact Grows.of_append hadded
    · have hadded : (log.record file block vars).tables other = log.tables other ++ [] := by
        rw [record, hvalue, List.append_nil, tables]
        simp [valueOf?_upsert_of_ne (beq_eq_false_iff_ne.2 hfile), tables]
      exact Grows.of_append hadded

end

end DebugLog

/-! ## Operations -/

namespace Session

/-- The mapping that an assignment to a path changes, if it goes into one. -/
def pathChange (s : Session) (name : String) (keys : List String) (v : Value) :
    List MappingChange :=
  (changedMapping? s.numbered v name keys s.state.vars).toList

/-- The mapping that an assignment changes, if it goes into one. -/
def assignChange (s : Session) (name : String) (v : Value) : List MappingChange :=
  match (splitAtChar '.' name.toList).map String.ofList with
  | first :: keys => s.pathChange first keys v
  | [] => []

/-- The mappings that assignments of the values of a mapping change. -/
def assignAllChanges (s : Session) (front : String) : List (Key × Value) → List MappingChange
  | [] => []
  | (key, v) :: rest =>
    s.assignChange (front ++ key.plain) v
      ++ (s.assign (front ++ key.plain) v).assignAllChanges front rest

/-- The mappings that an operation changes. -/
def operationChanges (s : Session) : Operation → List MappingChange
  | .assign name v => s.assignChange name v
  | .assignAll front entries => s.assignAllChanges front entries
  | _ => []

/-- The mappings that operations change one after the other. -/
def changes (s : Session) : List Operation → List MappingChange
  | [] => []
  | operation :: rest => s.operationChanges operation ++ (s.perform operation).2.changes rest

variable (s : Session)

theorem grows_assignPath (name : String) (keys : List String) (v : Value) :
    s.log.Grows (s.pathChange name keys v) (s.assignPath name keys v).log := by
  rw [assignPath, pathChange]
  split
  · rename_i origin contents hchanged
    rw [hchanged]
    exact s.log.grows_share (origin, contents)
  · rename_i hchanged
    rw [hchanged]
    exact .refl s.log

theorem grows_assign (name : String) (v : Value) :
    s.log.Grows (s.assignChange name v) (s.assign name v).log := by
  rw [assign, assignChange]
  cases (splitAtChar '.' name.toList).map String.ofList with
  | nil => exact .refl s.log
  | cons first keys => exact s.grows_assignPath first keys v

theorem grows_assignAll (front : String) (entries : List (Key × Value)) :
    s.log.Grows (s.assignAllChanges front entries) (s.assignAll front entries).log := by
  induction entries generalizing s with
  | nil => exact .refl s.log
  | cons entry rest ih => exact (s.grows_assign _ entry.2).trans (ih _)

theorem grows_recorded (block : String) : s.log.Grows [] (s.recorded block).log := by
  rw [recorded]
  split
  · exact s.log.grows_record s.fileName block s.state.vars
  · exact .refl s.log

theorem grows_parse (block : String) : s.log.Grows [] (s.parse block).2.log := by
  rw [parse]
  split
  · exact .refl s.log
  · exact s.grows_recorded block
  · rename_i path _ children _
    -- rendering looks at no table
    have hrun : (s.run (parseBlock s.host path children)).2.log = s.log := rfl
    split
    · rename_i s' heq
      rw [heq] at hrun
      rw [← hrun]
      exact s'.grows_recorded block
    · rename_i s' heq
      rw [heq] at hrun
      rw [← hrun]
      exact .refl _
  · exact .refl s.log

theorem grows_text (block : String) : s.log.Grows [] (s.text block).2.log := by
  have hlog : (s.text block).2.log = s.log := by
    rw [text]
    split
    · rfl
    · rfl
    · rfl
  rw [hlog]
  exact .refl s.log

theorem grows_of_reset {s' : Session} {block : String} (h : s.reset block = .ok s') :
    s.log.Grows [] s'.log := by
  obtain ⟨place, -, h⟩ := exists_of_bind_eq_ok h
  split at h
  · cases h
    exact .refl s.log
  · cases h
    exact .refl s.log
  · exact nomatch h

/-- An operation applies its changes to all tables, and may record one behind them. -/
theorem grows_perform (operation : Operation) :
    s.log.Grows (s.operationChanges operation) (s.perform operation).2.log := by
  cases operation with
  | assign name v => exact s.grows_assign name v
  | assignAll front entries => exact s.grows_assignAll front entries
  | parse block => exact s.grows_parse block
  | text block => exact s.grows_text block
  | out block =>
    rw [perform, out]
    split
    · exact .refl s.log
    · exact s.grows_text block
  | reset block =>
    rw [perform]
    split
    · rename_i heq
      exact s.grows_of_reset heq
    · exact .refl s.log

/-- Operations apply their changes to all tables, and record others behind them. -/
theorem grows_performAll (operations : List Operation) :
    s.log.Grows (s.changes operations) (s.performAll operations).2.log := by
  induction operations generalizing s with
  | nil => exact .refl s.log
  | cons operation rest ih => exact (s.grows_perform operation).trans (ih _)

end Session

/-- The report on a file goes on with what is recorded later, if no change is one of a mapping in
    its tables. -/
theorem DebugLog.Grows.report {changes : List MappingChange} {log log' : DebugLog}
    (h : log.Grows changes log') {file : String}
    (huntouched : ∀ entry ∈ log.tables file, entry.2.Untouched changes) :
    ∃ more, log'.report file = log.report file ++ more := by
  obtain ⟨added, hadded⟩ := h file
  rw [mapValues_eq_self fun entry hentry => VariableTable.after_eq_self (huntouched entry hentry)]
    at hadded
  refine ⟨String.join (added.map fun entry => blockReport file entry.1 entry.2), ?_⟩
  rw [DebugLog.report, hadded, List.map_append, String.join_append, ← String.append_assoc]
  rfl

/-- A recorded table keeps what was recorded, whatever is assigned, parsed, handed out and forgotten
    afterwards, but for the mappings that assignments go into. The table has the same rows in the
    same order, and each row without a mapping that is changed is as it was. So the whole table
    stays as it is if no assignment goes into a mapping in it, and the report on the file goes on
    with what is recorded later if none goes into a mapping in its tables. -/
theorem table_performAll {s : Session} {file block : String} {table : VariableTable}
    (h : valueOf? block (s.log.tables file) = some table) (operations : List Operation) :
    ∃ table', valueOf? block ((s.performAll operations).2.log.tables file) = some table'
      ∧ table'.map (·.1) = table.map (·.1)
      ∧ (∀ row ∈ table, row.2.Untouched (s.changes operations) → row ∈ table')
      ∧ (table.Untouched (s.changes operations) → table' = table)
      ∧ ((∀ entry ∈ s.log.tables file, entry.2.Untouched (s.changes operations)) →
        ∃ more, (s.performAll operations).2.log.report file = s.log.report file ++ more) := by
  have hgrows := s.grows_performAll operations
  obtain ⟨added, hadded⟩ := hgrows file
  refine ⟨table.after (s.changes operations), ?_, table.map_fst_after _,
    fun row hrow => VariableTable.mem_after hrow, VariableTable.after_eq_self, hgrows.report⟩
  rw [hadded]
  refine valueOf?_append_of_some ?_ added
  rw [valueOf?_mapValues, h]
  rfl

/-! ## A mapping within a variable -/

/-- A template that only has to be parsed. -/
def recordedSource : List Char := "<!-- BEGIN: A -->.<!-- END: A -->".toList

/-- A row with a mapping in it. -/
def nestedRow (n : Int) : Value :=
  .mapping (.host 0) [(.text "a", .mapping (.host 1) [(.text "b", .int n)])]

/-- A session with debugging on, with the row in a variable, after its first parse. -/
def recordedSession (t : CompiledTemplate) : Session :=
  ((Session.start "page" { debug := true } .empty "0" t).performAll
    [.assign "ROW" (nestedRow 1), .parse "A"]).2

/-- The table that has been recorded for the block. -/
def nestedTable (n : Int) : VariableTable :=
  [("ROW.a", .mapping (.host 1) [(.text "b", .int n)])]

/-- Later parses, and assignments beside the mapping within the row. -/
def besideOperations : List Operation :=
  [.assign "ROW.c" (.int 2), .parse "A", .assign "ROW" (.int 3), .parse "A", .out "A"]

set_option maxRecDepth 4000 in
/-- The row changes, and the table stays as it is. -/
theorem table_performAll_of_beside :
    ∃ t, compileTemplate recordedSource = .ok t
      ∧ valueOf? "A" ((recordedSession t).log.tables "page") = some (nestedTable 1)
      ∧ (recordedSession t).changes besideOperations
        = [(.host 0, [(.text "a", .mapping (.host 1) [(.text "b", .int 1)]), (.text "c", .int 2)])]
      ∧ valueOf? "A" (((recordedSession t).performAll besideOperations).2.log.tables "page")
        = some (nestedTable 1) := by
  have hcompiled : (compileTemplate recordedSource).map (fun t =>
      (valueOf? "A" ((recordedSession t).log.tables "page"),
        (recordedSession t).changes besideOperations))
      = .ok (some (nestedTable 1),
        [(.host 0, [(.text "a", .mapping (.host 1) [(.text "b", .int 1)]),
          (.text "c", .int 2)])]) := by cbv
  obtain ⟨t, ht, hrun⟩ := exists_of_map_eq_ok hcompiled
  obtain ⟨htable, hchanges⟩ := Prod.mk.inj hrun
  obtain ⟨table', hafter, -, -, hkept, -⟩ := table_performAll htable besideOperations
  have huntouched : (nestedTable 1).Untouched ((recordedSession t).changes besideOperations) := by
    rw [hchanges]
    simp [VariableTable.Untouched, Value.Untouched, nestedTable, Value.origins, entriesOrigins]
  rw [hkept huntouched] at hafter
  exact ⟨t, ht, htable, hchanges, hafter⟩

set_option maxRecDepth 4000 in
/-- An assignment into the mapping within the row changes the table. -/
theorem table_performAll_ne_of_nested :
    ∃ t, compileTemplate recordedSource = .ok t
      ∧ valueOf? "A" ((recordedSession t).log.tables "page") = some (nestedTable 1)
      ∧ valueOf? "A" (((recordedSession t).performAll
          [.assign "ROW.a.b" (.int 2)]).2.log.tables "page")
        = some (nestedTable 2)
      ∧ nestedTable 2 ≠ nestedTable 1 := by
  have hcompiled : (compileTemplate recordedSource).map (fun t =>
      (valueOf? "A" ((recordedSession t).log.tables "page"),
        valueOf? "A" (((recordedSession t).performAll
          [.assign "ROW.a.b" (.int 2)]).2.log.tables "page")))
      = .ok (some (nestedTable 1), some (nestedTable 2)) := by cbv
  obtain ⟨t, ht, hrun⟩ := exists_of_map_eq_ok hcompiled
  obtain ⟨hbefore, hafter⟩ := Prod.mk.inj hrun
  exact ⟨t, ht, hbefore, hafter, by simp [nestedTable]⟩

end BlockTemplate
