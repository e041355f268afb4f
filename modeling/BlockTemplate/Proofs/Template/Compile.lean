import BlockTemplate.Proofs.Outcome
import BlockTemplate.Proofs.Reference.Chunks
import BlockTemplate.Template.Compile

/-!
# What compiled nodes are made of

A node is compiled from literal text, or from a construct whose header or condition has been parsed,
and its children have been compiled before it.

## Key results

- `nextConstruct?_isParsed`: the headers and conditions of constructs are parsed
- `compileFrom_eq_ok_iff`: the compiler as a relation with one rule for each kind of construct, on
  which later proofs go by induction
- `forall_mem_compileFrom`: what holds of nodes by what they are made of holds of compiled nodes
- `forall_blocks_of_compileTemplate`: and of the root blocks of compiled templates
-/

namespace BlockTemplate

/-- Literal text is cut into chunks like any text with tags. -/
theorem dataChunks_eq_map_toChunk (text : List Char) :
    dataChunks text = (tagPieces text).map Piece.toChunk :=
  rfl

/-- Whether the header of a loop, or the condition of a conditional, is what some text denotes. -/
def ConstructKind.IsParsed : ConstructKind → Prop
  | block _ _ => True
  | loop header _ => ∃ text, LoopHeader.parse? text = some header
  | conditional condition _ _ => ∃ source, Condition.parse source = .ok condition

section
variable {code : List Char} {lineStart : Bool} {opener : Found Marker} {c : Construct}

theorem loopAt_isParsed {header : List Char} (h : loopAt code lineStart opener header = .ok c) :
    c.kind.IsParsed := by
  obtain ⟨-, close, parsed, -, hparse, rfl⟩ := loopAt_eq_ok_iff.1 h
  exact ⟨header, hparse⟩

theorem conditionalAt_isParsed {condition : List Char}
    (h : conditionalAt code lineStart opener condition = .ok c) : c.kind.IsParsed := by
  obtain ⟨-, separator, close, parsed, -, hparse, rfl⟩ := conditionalAt_eq_ok_iff.1 h
  exact ⟨condition, hparse⟩

/-- The headers and conditions of constructs are parsed. -/
theorem nextConstruct?_isParsed {pos : Nat}
    (h : nextConstruct? code lineStart pos = .ok (some c)) : c.kind.IsParsed := by
  obtain ⟨opener, -, h⟩ := nextConstruct?_eq_some_iff.1 h
  obtain ⟨header, -, h⟩ | ⟨condition, -, h⟩ | ⟨name, close, -, -, rfl⟩ := constructAt_cases h
  · exact loopAt_isParsed h
  · exact conditionalAt_isParsed h
  · trivial

end

/-! ## Compiling one construct -/

section
variable {code : List Char} {path : BlockPath} {lineStart : Bool} {pos number start stop : Nat}
  {inner others rest : CompiledUnit}

/-- Without another construct the rest is literal text. -/
theorem compileFrom_of_none (h : nextConstruct? code lineStart pos = .ok none) :
    compileFrom code path lineStart pos number
      = .ok ⟨dataEntries number (code.drop pos), []⟩ := by
  rw [compileFrom]
  split
  · rename_i e heq
    rw [h] at heq
    cases heq
  · rfl
  · rename_i c heq
    rw [h] at heq
    cases heq

theorem compileFrom_of_block {name : String} {body : Body}
    (h : nextConstruct? code lineStart pos = .ok (some ⟨start, stop, .block name body⟩))
    (hinner : compileFrom body.code (path ++ [.text name]) body.lineStart 0 0 = .ok inner)
    (hrest : compileFrom code path lineStart stop
      (number + (dataEntries number (slice code pos start)).length) = .ok rest) :
    compileFrom code path lineStart pos number
      = .ok ⟨dataEntries number (slice code pos start)
          ++ (.text name, .block (.text name) inner.children) :: rest.entries,
        (fullName (path ++ [.text name]), path ++ [.text name]) :: inner.index ++ rest.index⟩ := by
  rw [compileFrom]
  split
  · rename_i e heq
    rw [h] at heq
    cases heq
  · rename_i heq
    rw [h] at heq
    cases heq
  · rename_i c heq
    rw [h] at heq
    cases heq
    simp only [hinner, hrest]
    rfl

theorem compileFrom_of_loop {header : LoopHeader} {body : Body}
    (h : nextConstruct? code lineStart pos = .ok (some ⟨start, stop, .loop header body⟩))
    (hinner : compileFrom body.code
      (path ++ [.int ↑(number + (dataEntries number (slice code pos start)).length)])
      body.lineStart 0 0 = .ok inner)
    (hrest : compileFrom code path lineStart stop
      (number + (dataEntries number (slice code pos start)).length + 1) = .ok rest) :
    compileFrom code path lineStart pos number
      = .ok ⟨dataEntries number (slice code pos start)
          ++ (.int ↑(number + (dataEntries number (slice code pos start)).length),
            .loop header inner.children) :: rest.entries,
        inner.index ++ rest.index⟩ := by
  rw [compileFrom]
  split
  · rename_i e heq
    rw [h] at heq
    cases heq
  · rename_i heq
    rw [h] at heq
    cases heq
  · rename_i c heq
    rw [h] at heq
    cases heq
    simp only [hinner, hrest]
    rfl

theorem compileFrom_of_conditional {condition : Condition} {ifBody elseBody : Body}
    (h : nextConstruct? code lineStart pos
      = .ok (some ⟨start, stop, .conditional condition ifBody elseBody⟩))
    (hinner : compileFrom ifBody.code
      (path ++ [.int ↑(number + (dataEntries number (slice code pos start)).length)] ++ [.int 0])
      ifBody.lineStart 0 0 = .ok inner)
    (hothers : compileFrom elseBody.code
      (path ++ [.int ↑(number + (dataEntries number (slice code pos start)).length)] ++ [.int 1])
      elseBody.lineStart 0 0 = .ok others)
    (hrest : compileFrom code path lineStart stop
      (number + (dataEntries number (slice code pos start)).length + 1) = .ok rest) :
    compileFrom code path lineStart pos number
      = .ok ⟨dataEntries number (slice code pos start)
          ++ (.int ↑(number + (dataEntries number (slice code pos start)).length),
            .conditional condition inner.children others.children) :: rest.entries,
        inner.index ++ others.index ++ rest.index⟩ := by
  rw [compileFrom]
  split
  · rename_i e heq
    rw [h] at heq
    cases heq
  · rename_i heq
    rw [h] at heq
    cases heq
  · rename_i c heq
    rw [h] at heq
    cases heq
    simp only [hinner, hothers, hrest]
    rfl

end

/-! ## Compilation as a relation -/

/-- Which unit is compiled from a position of a text on: one rule for the end of the constructs and
    one for each kind of construct. -/
inductive CompilesTo : List Char → BlockPath → Bool → Nat → Nat → CompiledUnit → Prop
  | text {code path lineStart pos number} (h : nextConstruct? code lineStart pos = .ok none) :
    CompilesTo code path lineStart pos number ⟨dataEntries number (code.drop pos), []⟩
  | block {code path lineStart pos number start stop name body inner rest}
    (h : nextConstruct? code lineStart pos = .ok (some ⟨start, stop, .block name body⟩))
    (hinner : CompilesTo body.code (path ++ [.text name]) body.lineStart 0 0 inner)
    (hrest : CompilesTo code path lineStart stop
      (number + (dataEntries number (slice code pos start)).length) rest) :
    CompilesTo code path lineStart pos number
      ⟨dataEntries number (slice code pos start)
          ++ (.text name, .block (.text name) inner.children) :: rest.entries,
        (fullName (path ++ [.text name]), path ++ [.text name]) :: inner.index ++ rest.index⟩
  | loop {code path lineStart pos number start stop header body inner rest}
    (h : nextConstruct? code lineStart pos = .ok (some ⟨start, stop, .loop header body⟩))
    (hinner : CompilesTo body.code
      (path ++ [.int ↑(number + (dataEntries number (slice code pos start)).length)])
      body.lineStart 0 0 inner)
    (hrest : CompilesTo code path lineStart stop
      (number + (dataEntries number (slice code pos start)).length + 1) rest) :
    CompilesTo code path lineStart pos number
      ⟨dataEntries number (slice code pos start)
          ++ (.int ↑(number + (dataEntries number (slice code pos start)).length),
            .loop header inner.children) :: rest.entries,
        inner.index ++ rest.index⟩
  | conditional {code path lineStart pos number start stop condition ifBody elseBody inner others
      rest}
    (h : nextConstruct? code lineStart pos
      = .ok (some ⟨start, stop, .conditional condition ifBody elseBody⟩))
    (hinner : CompilesTo ifBody.code
      (path ++ [.int ↑(number + (dataEntries number (slice code pos start)).length)] ++ [.int 0])
      ifBody.lineStart 0 0 inner)
    (hothers : CompilesTo elseBody.code
      (path ++ [.int ↑(number + (dataEntries number (slice code pos start)).length)] ++ [.int 1])
      elseBody.lineStart 0 0 others)
    (hrest : CompilesTo code path lineStart stop
      (number + (dataEntries number (slice code pos start)).length + 1) rest) :
    CompilesTo code path lineStart pos number
      ⟨dataEntries number (slice code pos start)
          ++ (.int ↑(number + (dataEntries number (slice code pos start)).length),
            .conditional condition inner.children others.children) :: rest.entries,
        inner.index ++ others.index ++ rest.index⟩

/-- What is compiled is in the relation. -/
theorem compilesTo_of_compileFrom {code : List Char} {path : BlockPath} {lineStart : Bool}
    {pos number : Nat} {u : CompiledUnit}
    (hu : compileFrom code path lineStart pos number = .ok u) :
    CompilesTo code path lineStart pos number u := by
  rw [compileFrom] at hu
  split at hu
  · cases hu
  · rename_i hnone
    cases hu
    exact .text hnone
  · rename_i c hc
    -- bodies are shorter than the code, and what is behind the construct starts later
    obtain ⟨hpos, hstop, hbodies⟩ := nextConstruct?_advances hc
    obtain ⟨start, stop, kind⟩ := c
    dsimp only at hu hstop hbodies
    have hlater : code.length - stop < code.length - pos := by omega
    split at hu
    · rename_i name body
      have hbody := hbodies body (by simp [ConstructKind.bodies])
      obtain ⟨inner, hinner, hu⟩ := exists_of_bind_eq_ok hu
      obtain ⟨rest, hrest, hu⟩ := exists_of_bind_eq_ok hu
      cases hu
      exact .block hc (compilesTo_of_compileFrom hinner) (compilesTo_of_compileFrom hrest)
    · rename_i header body
      have hbody := hbodies body (by simp [ConstructKind.bodies])
      obtain ⟨inner, hinner, hu⟩ := exists_of_bind_eq_ok hu
      obtain ⟨rest, hrest, hu⟩ := exists_of_bind_eq_ok hu
      cases hu
      exact .loop hc (compilesTo_of_compileFrom hinner) (compilesTo_of_compileFrom hrest)
    · rename_i condition ifBody elseBody
      have hif := hbodies ifBody (by simp [ConstructKind.bodies])
      have helse := hbodies elseBody (by simp [ConstructKind.bodies])
      obtain ⟨inner, hinner, hu⟩ := exists_of_bind_eq_ok hu
      obtain ⟨others, hothers, hu⟩ := exists_of_bind_eq_ok hu
      obtain ⟨rest, hrest, hu⟩ := exists_of_bind_eq_ok hu
      cases hu
      exact .conditional hc (compilesTo_of_compileFrom hinner) (compilesTo_of_compileFrom hothers)
        (compilesTo_of_compileFrom hrest)
termination_by (code.length, code.length - pos)

/-- The relation is the compiler: there is one unit at most, and the compiler gives it. -/
theorem compileFrom_eq_ok_iff {code : List Char} {path : BlockPath} {lineStart : Bool}
    {pos number : Nat} {u : CompiledUnit} :
    compileFrom code path lineStart pos number = .ok u
      ↔ CompilesTo code path lineStart pos number u := by
  refine ⟨compilesTo_of_compileFrom, fun h => ?_⟩
  induction h with
  | text h => exact compileFrom_of_none h
  | block h _ _ hinner hrest => exact compileFrom_of_block h hinner hrest
  | loop h _ _ hinner hrest => exact compileFrom_of_loop h hinner hrest
  | conditional h _ _ _ hinner hothers hrest =>
    exact compileFrom_of_conditional h hinner hothers hrest

/-! ## Properties of compiled nodes -/

/-- Whether a property of nodes follows from what they are made of. -/
structure HoldsOfParts (P : Node → Prop) : Prop where
  data : ∀ text, P (.data (dataChunks text))
  block : ∀ name children, DistinctKeys children → (∀ entry ∈ children, P entry.2) →
    P (.block (.text name) children)
  loop : ∀ text header children, LoopHeader.parse? text = some header → DistinctKeys children →
    (∀ entry ∈ children, P entry.2) → P (.loop header children)
  conditional : ∀ source condition ifChildren elseChildren,
    Condition.parse source = .ok condition →
    DistinctKeys ifChildren → (∀ entry ∈ ifChildren, P entry.2) →
    DistinctKeys elseChildren → (∀ entry ∈ elseChildren, P entry.2) →
    P (.conditional condition ifChildren elseChildren)

theorem forall_mem_dataEntries {P : Node → Prop} (h : HoldsOfParts P) (number : Nat)
    (text : List Char) : ∀ entry ∈ dataEntries number text, P entry.2 := by
  intro entry hentry
  unfold dataEntries at hentry
  split at hentry
  · exact nomatch hentry
  · rw [List.mem_singleton.1 hentry]
    exact h.data text

theorem forall_mem_append_cons {P : Node → Prop} {before rest : Children} {key : Key} {node : Node}
    (hbefore : ∀ entry ∈ before, P entry.2) (hnode : P node) (hrest : ∀ entry ∈ rest, P entry.2) :
    ∀ entry ∈ before ++ (key, node) :: rest, P entry.2 := by
  intro entry hentry
  rcases List.mem_append.1 hentry with hentry | hentry
  · exact hbefore entry hentry
  · rcases List.mem_cons.1 hentry with rfl | hentry
    · exact hnode
    · exact hrest entry hentry

/-- What holds of nodes by what they are made of holds of compiled nodes. -/
theorem forall_mem_compileFrom {P : Node → Prop} (h : HoldsOfParts P) {code : List Char}
    {path : BlockPath} {lineStart : Bool} {pos number : Nat} {u : CompiledUnit}
    (hu : compileFrom code path lineStart pos number = .ok u) :
    ∀ entry ∈ u.entries, P entry.2 := by
  -- by the rules of compilation: each puts literal text and one node in front of the rest
  rw [compileFrom_eq_ok_iff] at hu
  induction hu with
  | text hnone => exact forall_mem_dataEntries h _ _
  | block hc hinner hrest ihinner ihrest =>
    refine forall_mem_append_cons (forall_mem_dataEntries h _ _) ?_ ihrest
    exact h.block _ _ (distinctKeys_ofEntries _) (forall_mem_ofEntries ihinner)
  | loop hc hinner hrest ihinner ihrest =>
    obtain ⟨text, hparse⟩ := nextConstruct?_isParsed hc
    refine forall_mem_append_cons (forall_mem_dataEntries h _ _) ?_ ihrest
    exact h.loop text _ _ hparse (distinctKeys_ofEntries _) (forall_mem_ofEntries ihinner)
  | conditional hc hinner hothers hrest ihinner ihothers ihrest =>
    obtain ⟨source, hparse⟩ := nextConstruct?_isParsed hc
    refine forall_mem_append_cons (forall_mem_dataEntries h _ _) ?_ ihrest
    exact h.conditional source _ _ _ hparse (distinctKeys_ofEntries _)
      (forall_mem_ofEntries ihinner) (distinctKeys_ofEntries _) (forall_mem_ofEntries ihothers)

/-- The root blocks of a compiled template are compiled blocks with distinct keys. -/
theorem forall_blocks_of_compileTemplate {P : Node → Prop} (h : HoldsOfParts P) {code : List Char}
    {t : CompiledTemplate} (ht : compileTemplate code = .ok t) :
    DistinctKeys t.blocks
      ∧ ∀ entry ∈ t.blocks, P entry.2 ∧ ∃ name children, entry.2 = .block name children := by
  obtain ⟨compiled, hcompiled, ht⟩ := exists_of_bind_eq_ok ht
  cases ht
  refine ⟨distinctKeys_ofEntries _, forall_mem_ofEntries (P := fun node =>
    P node ∧ ∃ name children, node = .block name children) ?_⟩
  intro entry hentry
  obtain ⟨result, hresult, rfl⟩ := List.mem_map.1 hentry
  -- each block is compiled from one root
  obtain ⟨root, -, hroot⟩ := exists_of_mem_mapM hcompiled result hresult
  obtain ⟨inner, hinner, hroot⟩ := exists_of_bind_eq_ok hroot
  cases hroot
  have hchildren := forall_mem_ofEntries (forall_mem_compileFrom h hinner)
  exact ⟨h.block _ _ (distinctKeys_ofEntries _) hchildren, _, _, rfl⟩

end BlockTemplate
