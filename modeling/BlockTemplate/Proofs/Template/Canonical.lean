import BlockTemplate.Proofs.Markup.Construct
import BlockTemplate.Proofs.Template.Compile

/-!
# Canonical nodes

Nodes as they result from a text in lines, and the lines in which nodes are written.

## Key results

- `LoopHeader.IsCanonical.parse?_toSource`: the header of a canonical loop is read as it is written
- `toList_chunksSource_dataChunks`: literal text is written as it was read
- `linesChars_childrenLines`: the source text of nodes is the text of their lines
- `IsCanonical.proper_lines`, `neutral_childrenLines`: the lines of canonical nodes are what they
  say, and searches for end markers pass over them
-/

namespace BlockTemplate

/-- The text of a collection in a loop header: a dotted name, and perhaps callbacks behind a bar. -/
def IsCollection (source : List Char) : Prop :=
  ∃ name calls, source = name ++ calls ∧ name ≠ [] ∧ (∀ c ∈ name, isEmbeddedName c)
    ∧ (calls = [] ∨ ∃ more, calls = '|' :: more ∧ more ≠ [])

/-- A label that is a name. -/
def Json.IsNameLabel (label : Label) : Prop := ∃ name, label = .text name ∧ IsName name.toList

/-- A header with names for its variables, of a collection that can stand in a header. -/
structure LoopHeader.IsCanonical (h : LoopHeader) : Prop where
  key : ∀ label ∈ h.keyVar, label.IsNameLabel
  value : h.valueVar.IsNameLabel
  collection : ∃ source, h.collection = Reference.parse source ∧ IsCollection source
  no_start : occursIn commentStart h.toSource.toList = false
  no_end : occursIn commentEnd h.toSource.toList = false

/-- The compiled form of a text that can stand in a marker. -/
def Condition.IsCanonical (c : Condition) : Prop :=
  ∃ source, Condition.parse source = .ok c ∧ IsHeader source

/-- Whether blocks are keyed by their names, and other nodes by the numbers from the given one
    on. -/
def IsNumbered (number : Nat) : Children → Prop
  | [] => True
  | (key, .block label _) :: rest =>
    (∃ name, key = .text name ∧ label = .text name ∧ IsName name.toList) ∧ IsNumbered number rest
  | (key, _) :: rest => key = .int number ∧ IsNumbered (number + 1) rest

/-- Whether no two nodes of literal text are neighbours; `afterText` tells whether there is one
    before the nodes. -/
def TextsApart (afterText : Bool) : Children → Prop
  | [] => True
  | (_, .data _) :: rest => afterText = false ∧ TextsApart true rest
  | _ :: rest => TextsApart false rest

/-- Nodes that are keyed as the children of one node, with literal text between other nodes. -/
structure IsLevel (children : Children) : Prop where
  numbered : IsNumbered 0 children
  distinct : DistinctKeys children
  apart : TextsApart false children

mutual

/-- A node that is written so that it is read again. -/
def Node.IsCanonical : Node → Prop
  | .data chunks => ∃ text, chunks = dataChunks text ∧ IsLiteral text
  | .block _ children => IsLevel children ∧ AreCanonical children
  | .loop header children => header.IsCanonical ∧ IsLevel children ∧ AreCanonical children
  | .conditional condition ifChildren elseChildren =>
    condition.IsCanonical ∧ (IsLevel ifChildren ∧ AreCanonical ifChildren)
      ∧ IsLevel elseChildren ∧ AreCanonical elseChildren

def AreCanonical : List (Key × Node) → Prop
  | [] => True
  | (_, node) :: rest => node.IsCanonical ∧ AreCanonical rest

end

/-- The children of a node, canonical at every level. -/
def IsCanonical (children : Children) : Prop := IsLevel children ∧ AreCanonical children

/-! ## Headers -/

theorem bracedName?_append {name : List Char} (h : IsName name) (after : List Char) :
    bracedName? ('{' :: (name ++ '}' :: after)) = some (name, after) := by
  have htake : (name ++ '}' :: after).takeWhile isWord = name := by
    rw [List.takeWhile_append_of_pos h.word, List.takeWhile_cons_of_neg (by decide),
      List.append_nil]
  have hdrop : (name ++ '}' :: after).dropWhile isWord = '}' :: after := by
    rw [List.dropWhile_append_of_pos h.word, List.dropWhile_cons_of_neg (by decide)]
  obtain ⟨c, rest, rfl⟩ := List.exists_cons_of_ne_nil h.nonempty
  simp only [bracedName?, htake, hdrop]

theorem collectionTag?_braces {source : List Char} (h : IsCollection source) :
    collectionTag? ('{' :: (source ++ ['}'])) = some source := by
  obtain ⟨name, calls, rfl, hne, hname, hcalls⟩ := h
  -- what follows the name is a bar or nothing, so the name ends where it should
  have htake : (name ++ calls).takeWhile isEmbeddedName = name := by
    rw [List.takeWhile_append_of_pos hname]
    rcases hcalls with rfl | ⟨more, rfl, -⟩
    · simp
    · rw [List.takeWhile_cons_of_neg (by decide), List.append_nil]
  have hdrop : (name ++ calls).dropWhile isEmbeddedName = calls := by
    rw [List.dropWhile_append_of_pos hname]
    rcases hcalls with rfl | ⟨more, rfl, -⟩
    · rfl
    · rw [List.dropWhile_cons_of_neg (by decide)]
  obtain ⟨c, rest, rfl⟩ := List.exists_cons_of_ne_nil hne
  simp only [collectionTag?, List.dropLast_concat, List.getLast?_concat, htake, hdrop]
  rcases hcalls with rfl | ⟨more, rfl, hmore⟩
  · simp
  · simp [hmore]

theorem collectionAfterIn?_append (before : List Char) (hbefore : ∀ c ∈ before, isBlank c)
    {source : List Char} (h : IsCollection source) :
    collectionAfterIn? (before ++ 'I' :: 'N' :: ' ' :: '{' :: (source ++ ['}']))
      = some (Reference.parse source) := by
  have hkeyword (s : List Char) : (before ++ 'I' :: s).dropWhile isBlank = 'I' :: s := by
    rw [List.dropWhile_append_of_pos hbefore, List.dropWhile_cons_of_neg (by decide)]
  have hbrace (s : List Char) : (' ' :: '{' :: s).dropWhile isBlank = '{' :: s := rfl
  simp only [collectionAfterIn?, hkeyword, afterPattern?, if_true, Option.bind_eq_bind,
    Option.bind_some, hbrace, collectionTag?_braces h, Option.pure_def]

namespace LoopHeader.IsCanonical

variable {h : LoopHeader}

/-- The value and the collection as they are written. -/
theorem toList_toSource (hh : h.IsCanonical) :
    ∃ value source, h.valueVar = .text (String.ofList value) ∧ IsName value
      ∧ h.collection = Reference.parse source ∧ IsCollection source
      ∧ (h.keyVar = none ∧ h.toSource.toList
          = '{' :: (value ++ '}' :: ' ' :: 'I' :: 'N' :: ' ' :: '{' :: (source ++ ['}']))
        ∨ ∃ key, h.keyVar = some (.text (String.ofList key)) ∧ IsName key
          ∧ h.toSource.toList = '{' :: (key ++ '}' :: ',' :: ' ' :: '{'
            :: (value ++ '}' :: ' ' :: 'I' :: 'N' :: ' ' :: '{' :: (source ++ ['}'])))) := by
  obtain ⟨value, hvalue, hname⟩ := hh.value
  obtain ⟨source, hsource, hcollection⟩ := hh.collection
  refine ⟨value.toList, source, by simpa using hvalue, hname, hsource, hcollection, ?_⟩
  cases hkey : h.keyVar with
  | none =>
    refine .inl ⟨rfl, ?_⟩
    simp [toSource, boundKey?, hkey, hvalue, hsource, Json.shown, Reference.toSource,
      Reference.source_parse]
  | some label =>
    obtain ⟨key, rfl, hkeyName⟩ := hh.key label hkey
    -- a key with an empty name would not be written
    have hnonempty : (key == "") = false := by
      have := hkeyName.nonempty
      simpa using this
    refine .inr ⟨key.toList, by simp, hkeyName, ?_⟩
    simp [toSource, boundKey?, hkey, hvalue, hsource, Json.shown, Reference.toSource,
      Reference.source_parse, Option.filter, Json.isNothing, hnonempty]

/-- A header is read as it is written. -/
theorem parse?_toSource (hh : h.IsCanonical) : LoopHeader.parse? h.toSource.toList = some h := by
  obtain ⟨value, source, hvalue, hname, hsource, hcollection, hwritten⟩ := hh.toList_toSource
  have hblank (s : List Char) : (' ' :: 'I' :: s).dropWhile isBlank = 'I' :: s := rfl
  have hcomma (s : List Char) : (',' :: s).dropWhile isBlank = ',' :: s := rfl
  have hbrace (s : List Char) : (' ' :: '{' :: s).dropWhile isBlank = '{' :: s := rfl
  rcases hwritten with ⟨hkey, hwritten⟩ | ⟨key, hkey, hkeyName, hwritten⟩
  · have hin := collectionAfterIn?_append [] (by simp) hcollection
    rw [List.nil_append] at hin
    rw [hwritten, parse?, bracedName?_append hname]
    simp only [Option.bind_eq_bind, Option.bind_some, hblank]
    show (collectionAfterIn? ('I' :: 'N' :: ' ' :: '{' :: (source ++ ['}']))).bind _ = _
    rw [hin, Option.bind_some, Option.pure_def, ← hkey, ← hvalue, ← hsource]
  · have hin := collectionAfterIn?_append [' '] (List.forall_mem_singleton.2 rfl) hcollection
    rw [List.singleton_append] at hin
    rw [hwritten, parse?, bracedName?_append hkeyName]
    simp only [Option.bind_eq_bind, Option.bind_some, hcomma, hbrace, bracedName?_append hname, hin,
      Option.pure_def]
    rw [← hkey, ← hvalue, ← hsource]

theorem isHeader (hh : h.IsCanonical) : IsHeader h.toSource.toList := by
  -- a header starts and ends with a brace, so trimming blanks leaves it as it is
  have hbraces : ∃ inner, h.toSource.toList = '{' :: inner ++ ['}'] := by
    obtain ⟨value, source, -, -, -, -, hwritten⟩ := hh.toList_toSource
    rcases hwritten with ⟨-, hwritten⟩ | ⟨key, -, -, hwritten⟩
    · exact ⟨value ++ ['}', ' ', 'I', 'N', ' ', '{'] ++ source, by simp [hwritten]⟩
    · exact ⟨key ++ ['}', ',', ' ', '{'] ++ value ++ ['}', ' ', 'I', 'N', ' ', '{'] ++ source,
        by simp [hwritten]⟩
  obtain ⟨inner, hinner⟩ := hbraces
  have hedges : HasNoEdges isBlank ('{' :: inner ++ ['}']) := by
    constructor
    · intro c hc
      cases hc
      decide
    · intro c hc
      rw [List.getLast?_concat] at hc
      cases hc
      decide
  have hne : '{' :: inner ++ ['}'] ≠ [] := List.cons_ne_nil _ _
  refine ⟨hinner ▸ hne, ?_, hh.no_start, hh.no_end⟩
  rw [hinner]
  exact trimBoth_eq_self hedges hne

end LoopHeader.IsCanonical

/-! ## Literal text -/

/-- Literal text is written as it was read. -/
theorem toList_chunksSource_dataChunks (text : List Char) :
    (chunksSource (dataChunks text)).toList = text := by
  rw [dataChunks_eq_map_toChunk, toList_chunksSource_map_toChunk]
  refine flatMap_cutPieces (fun _ => rfl) ?_ text
  intro t body after h
  rw [eq_of_tag? h, Piece.chars, List.append_assoc, List.singleton_append]

/-! ## Lines of nodes -/

mutual

/-- The lines in which a node is written, without the markers of a block. -/
def Node.lines : Node → List Line
  | .data chunks => [.text (chunksSource chunks).toList]
  | .block _ children => childrenLines children
  | .loop header children => loopLines header.toSource.toList (childrenLines children)
  | .conditional condition ifChildren elseChildren =>
    conditionalLines condition.source.shown.toList (childrenLines ifChildren)
      (if elseChildren.isEmpty then none else some (childrenLines elseChildren))

/-- The lines in which nodes are written. -/
def childrenLines : List (Key × Node) → List Line
  | [] => []
  | (key, node) :: rest =>
    (match key with
      | .text name => blockLines name.toList node.lines
      | _ => node.lines)
      ++ childrenLines rest

end

theorem childrenLines_int_cons (number : Int) (node : Node) (rest : Children) :
    childrenLines ((.int number, node) :: rest) = node.lines ++ childrenLines rest :=
  rfl

theorem linesChars_blockLines (name : String) (lines : List Line) :
    linesChars (blockLines name.toList lines)
      = ("<!-- BEGIN: " ++ name ++ " -->\n").toList ++ linesChars lines
        ++ ("<!-- END: " ++ name ++ " -->\n").toList := by
  simp [blockLines, Line.chars, Marker.chars, Marker.content, commentStart, commentEnd]

mutual

theorem Node.linesChars_lines (node : Node) : linesChars node.lines = node.toSource.toList := by
  cases node with
  | data chunks => simp [Node.lines, Node.toSource, Line.chars]
  | block label children => exact linesChars_childrenLines children
  | loop header children =>
    have hinner := linesChars_childrenLines children
    simp [Node.lines, Node.toSource, loopLines, Line.chars, Marker.chars, Marker.content, hinner,
      commentStart, commentEnd]
  | conditional condition ifChildren elseChildren =>
    have hif := linesChars_childrenLines ifChildren
    have helse := linesChars_childrenLines elseChildren
    by_cases hempty : elseChildren.isEmpty = true
    · simp [Node.lines, Node.toSource, conditionalLines, Line.chars, Marker.chars, Marker.content,
        hif, hempty, commentStart, commentEnd]
    · simp [Node.lines, Node.toSource, conditionalLines, Line.chars, Marker.chars, Marker.content,
        hif, helse, hempty, commentStart, commentEnd]

/-- The source text of nodes is the text of their lines. -/
theorem linesChars_childrenLines (children : List (Key × Node)) :
    linesChars (childrenLines children) = (childrenSource children).toList := by
  match children with
  | [] => rfl
  | (key, node) :: rest =>
    have hnode := node.linesChars_lines
    have hrest := linesChars_childrenLines rest
    cases key with
    | text name =>
      rw [childrenLines, childrenSource_text_cons, linesChars_append, linesChars_blockLines, hnode,
        hrest]
      simp only [String.toList_append, List.append_assoc]
    | _ =>
      rw [childrenLines, childrenSource_cons_of_not_text rfl, linesChars_append, hnode, hrest,
        String.toList_append]
      exact nofun

end

section
variable {α σ ρ : Type} {scan : σ → List (Found α) → ρ} {f : Marker → Option α}

mutual

theorem Node.neutral_lines (h : PassesOver scan f) (node : Node) : Neutral scan f node.lines := by
  cases node with
  | data chunks => exact Neutral.text _
  | block label children => exact neutral_childrenLines h children
  | loop header children => exact h.loop (neutral_childrenLines h children)
  | conditional condition ifChildren elseChildren =>
    rw [Node.lines]
    split
    · exact h.conditional (neutral_childrenLines h ifChildren)
    · exact h.branches (neutral_childrenLines h ifChildren) (neutral_childrenLines h elseChildren)

/-- Searches for end markers pass over the lines of nodes. -/
theorem neutral_childrenLines (h : PassesOver scan f) (children : List (Key × Node)) :
    Neutral scan f (childrenLines children) := by
  match children with
  | [] => exact Neutral.nil
  | (key, node) :: rest =>
    have hnode := node.neutral_lines h
    have hrest := neutral_childrenLines h rest
    cases key with
    | text name => exact (h.block hnode).append hrest
    | _ => exact hnode.append hrest

end

end

/-! ## Lines of canonical nodes -/

theorem proper_blockLines {name : List Char} {lines : List Line} (hname : IsName name)
    (h : ∀ line ∈ lines, line.IsProper) : ∀ line ∈ blockLines name lines, line.IsProper := by
  intro line hline
  rw [blockLines, List.cons_append, List.mem_cons, List.mem_append, List.mem_singleton] at hline
  rcases hline with rfl | hline | rfl
  · exact hname
  · exact h line hline
  · exact hname

theorem proper_loopLines {header : List Char} {lines : List Line} (hheader : IsHeader header)
    (h : ∀ line ∈ lines, line.IsProper) : ∀ line ∈ loopLines header lines, line.IsProper := by
  intro line hline
  rw [loopLines, List.cons_append, List.mem_cons, List.mem_append, List.mem_singleton] at hline
  rcases hline with rfl | hline | rfl
  · exact hheader
  · exact h line hline
  · trivial

theorem proper_conditionalLines {condition : List Char} {lines : List Line}
    {branch : Option (List Line)} (hcondition : IsHeader condition)
    (h : ∀ line ∈ lines, line.IsProper) (hbranch : ∀ others ∈ branch, ∀ line ∈ others,
      line.IsProper) : ∀ line ∈ conditionalLines condition lines branch, line.IsProper := by
  intro line hline
  cases branch with
  | none =>
    rw [conditionalLines, List.cons_append, List.mem_cons, List.mem_append, List.mem_singleton]
      at hline
    rcases hline with rfl | hline | rfl
    · exact hcondition
    · exact h line hline
    · trivial
  | some others =>
    rw [conditionalLines, List.cons_append, List.mem_cons, List.mem_append, List.cons_append,
      List.mem_cons, List.mem_append, List.mem_singleton] at hline
    rcases hline with rfl | hline | rfl | hline | rfl
    · exact hcondition
    · exact h line hline
    · trivial
    · exact hbranch others rfl line hline
    · trivial

/-- A text key is a name, and the nodes behind are numbered, too. -/
theorem IsNumbered.of_cons {number : Nat} {key : Key} {node : Node} {rest : Children}
    (h : IsNumbered number ((key, node) :: rest)) :
    (∀ name, key = .text name → IsName name.toList) ∧ ∃ next, IsNumbered next rest := by
  cases node with
  | block label children =>
    obtain ⟨⟨name, rfl, -, hname⟩, hrest⟩ := h
    exact ⟨fun other heq => Key.text.inj heq ▸ hname, _, hrest⟩
  -- other nodes have a number for a key
  | _ => exact ⟨fun name heq => (nomatch h.1.symm.trans heq), _, h.2⟩

theorem Condition.IsCanonical.isHeader {c : Condition} (h : c.IsCanonical) :
    IsHeader c.source.shown.toList ∧ Condition.parse c.source.shown.toList = .ok c := by
  obtain ⟨source, hparse, hheader⟩ := h
  rw [Condition.shown_of_parse hparse]
  exact ⟨hheader, hparse⟩

mutual

theorem Node.IsCanonical.proper_lines {node : Node} (h : node.IsCanonical) :
    ∀ line ∈ node.lines, line.IsProper := by
  cases node with
  | data chunks =>
    obtain ⟨text, rfl, htext⟩ := h
    intro line hline
    rw [Node.lines, toList_chunksSource_dataChunks] at hline
    rw [List.mem_singleton.1 hline]
    exact htext
  | block label children => exact h.2.proper_lines h.1.numbered
  | loop header children =>
    obtain ⟨hheader, hlevel, hchildren⟩ := h
    exact proper_loopLines hheader.isHeader (hchildren.proper_lines hlevel.numbered)
  | conditional condition ifChildren elseChildren =>
    obtain ⟨hcondition, ⟨hif, hifChildren⟩, helse, helseChildren⟩ := h
    refine proper_conditionalLines hcondition.isHeader.1 (hifChildren.proper_lines hif.numbered) ?_
    intro others hothers
    -- without a second branch there are no other lines
    split at hothers
    · exact nomatch hothers
    · cases hothers
      exact helseChildren.proper_lines helse.numbered

/-- The lines of canonical nodes are what they say. -/
theorem AreCanonical.proper_lines {number : Nat} {children : List (Key × Node)}
    (h : AreCanonical children) (hnumbered : IsNumbered number children) :
    ∀ line ∈ childrenLines children, line.IsProper := by
  match children with
  | [] => exact fun line hline => nomatch hline
  | (key, node) :: rest =>
    obtain ⟨hkey, next, hrest⟩ := hnumbered.of_cons
    have hnode := Node.IsCanonical.proper_lines h.1
    have hrest := h.2.proper_lines hrest
    intro line hline
    rcases List.mem_append.1 hline with hline | hline
    · cases key with
      -- the key of a block is a name, which its markers repeat
      | text name => exact proper_blockLines (hkey name rfl) hnode line hline
      | _ => exact hnode line hline
    · exact hrest line hline

end

end BlockTemplate
