import BlockTemplate.Proofs.Stored.Reference
import BlockTemplate.Proofs.Template.Compile
import BlockTemplate.Stored.Template

/-!
# Stored templates are read back

The three stored values of a compiled template are read back as the template: the nodes with their
keys, the index and the names of the tags.

## Key results

- `holdsOfParts_readsBack`: a node is read back if its children are
- `CompiledTemplate.ofJson_toJson`: a compiled template is read back from its stored form
-/

namespace BlockTemplate

/-- Whether reading the stored form of a node gives the node. -/
def Node.ReadsBack (node : Node) : Prop := Node.ofJson node.toJson = .ok node

/-! ## Literal text -/

theorem Piece.ofJson_toJson_toChunk (piece : Piece (List Char)) :
    Chunk.ofJson piece.toChunk.toJson = .ok piece.toChunk := by
  cases piece with
  | literal chars => rfl
  | found body =>
    have hbody := Reference.ofJson_toJson (Reference.isStorable_parse body)
    rw [Piece.toChunk, Chunk.toJson, Chunk.ofJson, Json.field_of_valueOf? rfl, ok_bind, hbody]
    rfl

theorem chunksOfJson_dataChunks (text : List Char) :
    chunksOfJson (.array ((dataChunks text).map Chunk.toJson)) = .ok (dataChunks text) := by
  rw [chunksOfJson, Json.labels, ok_bind, dataChunks_eq_map_toChunk]
  refine mapM_map_eq_ok fun chunk hchunk => ?_
  obtain ⟨piece, -, rfl⟩ := List.mem_map.1 hchunk
  exact piece.ofJson_toJson_toChunk

/-! ## Children -/

theorem Key.ofJson_toJson (key : Key) : Key.ofJson key.toJson = .ok key := by
  rw [Key.ofJson, Json.key?_toJson]

theorem Json.pair_of_two (first second : Json) :
    ∃ h, (array [first, second]).pair = .ok (first, ⟨second, h⟩) :=
  ⟨_, rfl⟩

/-- Read a stored pair of a key and a node. -/
def entryOfJson (entry : Json) : Except StoredError (Key × Node) := do
  let (key, part) ← entry.pair
  let node ← Node.ofJson part.1
  return (← Key.ofJson key, node)

theorem childrenOfJson_array (items : List Json) :
    childrenOfJson (.array items) = items.mapM entryOfJson := by
  obtain ⟨parts, hparts, hitems⟩ := Json.parts_array items pairError
  rw [childrenOfJson, hparts, ok_bind, ← mapM_parts hitems]
  rfl

theorem entryOfJson_toJson (key : Key) {node : Node} (h : node.ReadsBack) :
    entryOfJson (.array [key.toJson, node.toJson]) = .ok (key, node) := by
  obtain ⟨hsize, hpair⟩ := Json.pair_of_two key.toJson node.toJson
  rw [entryOfJson, hpair, ok_bind]
  dsimp only
  rw [h, ok_bind, Key.ofJson_toJson]
  rfl

theorem childrenOfJson_toJson {children : Children} (h : ∀ entry ∈ children, entry.2.ReadsBack) :
    childrenOfJson (.array (childrenToJson children)) = .ok children := by
  rw [childrenOfJson_array]
  induction children with
  | nil => rfl
  | cons entry rest ih =>
    have hrest := ih fun e he => h e (List.mem_cons_of_mem _ he)
    rw [childrenToJson, List.mapM_cons, entryOfJson_toJson _ (h entry List.mem_cons_self), ok_bind,
      hrest]
    rfl

/-! ## Nodes -/

theorem exists_of_collectionAfterIn? {s : List Char} {r : Reference}
    (h : collectionAfterIn? s = some r) : ∃ body, r = Reference.parse body := by
  simp only [collectionAfterIn?, Option.bind_eq_bind, Option.bind_eq_some_iff, Option.pure_def,
    Option.some.injEq] at h
  obtain ⟨_, _, body, _, rfl⟩ := h
  exact ⟨body, rfl⟩

/-- The collection of a parsed header is parsed, and its variables are texts. -/
theorem LoopHeader.exists_of_parse? {text : List Char} {header : LoopHeader}
    (h : LoopHeader.parse? text = some header) :
    (∃ body, header.collection = Reference.parse body)
      ∧ (header.keyVar = none ∨ ∃ name, header.keyVar = some (.text name))
      ∧ header.valueVar.isText := by
  unfold LoopHeader.parse? at h
  obtain ⟨⟨first, rest⟩, -, h⟩ := Option.bind_eq_some_iff.1 h
  dsimp only at h
  split at h
  -- two names before the keyword: a key and a value
  · obtain ⟨⟨second, rest⟩, -, h⟩ := Option.bind_eq_some_iff.1 h
    obtain ⟨collection, hcollection, h⟩ := Option.bind_eq_some_iff.1 h
    cases h
    exact ⟨exists_of_collectionAfterIn? hcollection, .inr ⟨_, rfl⟩, rfl⟩
  -- one name: the value alone
  · obtain ⟨collection, hcollection, h⟩ := Option.bind_eq_some_iff.1 h
    cases h
    exact ⟨exists_of_collectionAfterIn? hcollection, .inl rfl, rfl⟩

/-- A parsed header is read back from the fields of a record. -/
theorem LoopHeader.ofJson_fields {text : List Char} {header : LoopHeader}
    (h : LoopHeader.parse? text = some header) {members : List (String × Json)}
    (hvalue : valueOf? "value" members = some header.valueVar)
    (hset : valueOf? "set" members = some header.collection.toJson)
    (hkey : valueOf? "key" members = some (header.keyVar.getD .null)) :
    LoopHeader.ofJson (.object members) = .ok header := by
  obtain ⟨⟨body, hbody⟩, hkeyVar, -⟩ := LoopHeader.exists_of_parse? h
  have hcollection : Reference.ofJson header.collection.toJson = .ok header.collection := by
    rw [hbody]
    exact Reference.ofJson_toJson (Reference.isStorable_parse body)
  rw [LoopHeader.ofJson, Json.field_of_valueOf? hvalue, ok_bind, Json.field_of_valueOf? hset,
    ok_bind, hcollection, ok_bind, Json.field?_of_valueOf? hkey, ok_bind]
  -- a header without a key is stored with a null, and read back without one
  obtain ⟨keyVar, valueVar, collection⟩ := header
  rcases hkeyVar with rfl | ⟨name, rfl⟩
  · rfl
  · rfl

/-- A node is read back if its children are. -/
theorem holdsOfParts_readsBack : HoldsOfParts Node.ReadsBack where
  -- each kind of node is told by its type, and then its fields are read one after the other
  data text := by
    rw [Node.ReadsBack, Node.toJson, Node.ofJson, Json.field?_of_valueOf? rfl, ok_bind]
    simp only [Option.map_some, Option.getD_some]
    rw [Json.field_of_valueOf? rfl, ok_bind, chunksOfJson_dataChunks]
    rfl
  block name children hdistinct hchildren := by
    rw [Node.ReadsBack, Node.toJson, Node.ofJson, Json.field?_of_valueOf? rfl, ok_bind]
    simp only [Option.map_some, Option.getD_some]
    rw [Json.field_of_valueOf? rfl, ok_bind, Json.field_of_valueOf? rfl, ok_bind]
    simp only [childrenOfJson_toJson hchildren, ok_bind, ofEntries_eq_self hdistinct]
    rfl
  loop text header children hparse hdistinct hchildren := by
    rw [Node.ReadsBack, Node.toJson, Node.ofJson, Json.field?_of_valueOf? rfl, ok_bind]
    simp only [Option.map_some, Option.getD_some]
    rw [LoopHeader.ofJson_fields hparse rfl rfl rfl, ok_bind, Json.field_of_valueOf? rfl, ok_bind]
    simp only [childrenOfJson_toJson hchildren, ok_bind, ofEntries_eq_self hdistinct]
    rfl
  conditional source condition ifChildren elseChildren hparse hif hifChildren helse
      helseChildren := by
    rw [Node.ReadsBack, Node.toJson, Node.ofJson, Json.field?_of_valueOf? rfl, ok_bind]
    simp only [Option.map_some, Option.getD_some]
    rw [Json.field_of_valueOf? rfl, ok_bind, Condition.ofJson_toJson hparse, ok_bind,
      Json.field_of_valueOf? rfl, ok_bind]
    simp only [childrenOfJson_toJson hifChildren, ok_bind, ofEntries_eq_self hif]
    rw [Json.field_of_valueOf? rfl, ok_bind]
    simp only [childrenOfJson_toJson helseChildren, ok_bind, ofEntries_eq_self helse]
    rfl

/-! ## Templates -/

namespace CompiledTemplate

variable {code : List Char} {t : CompiledTemplate}

theorem rootEntryOfJson_toJson (key : Key) {name : Label} {children : Children}
    (h : (Node.block name children).ReadsBack) :
    rootEntryOfJson (.array [key.toJson, (Node.block name children).toJson])
      = .ok (key, .block name children) := by
  obtain ⟨hsize, hpair⟩ := Json.pair_of_two key.toJson (Node.block name children).toJson
  rw [rootEntryOfJson, hpair, ok_bind]
  dsimp only
  rw [Key.ofJson_toJson, ok_bind, h]
  rfl

theorem treeOfJson_toJson (h : compileTemplate code = .ok t) :
    treeOfJson t.treeToJson = .ok t.blocks := by
  obtain ⟨hdistinct, hblocks⟩ := forall_blocks_of_compileTemplate holdsOfParts_readsBack h
  have hentries : (childrenToJson t.blocks).mapM rootEntryOfJson = .ok t.blocks := by
    -- the blocks by themselves, since the template does not change with them
    generalize t.blocks = blocks at hblocks
    induction blocks with
    | nil => rfl
    | cons entry rest ih =>
      obtain ⟨key, node⟩ := entry
      obtain ⟨hnode, name, children, rfl⟩ := hblocks _ List.mem_cons_self
      have hrest := ih fun e he => hblocks e (List.mem_cons_of_mem _ he)
      rw [childrenToJson, List.mapM_cons, rootEntryOfJson_toJson key hnode, ok_bind, hrest]
      rfl
  obtain ⟨parts, hparts, hitems⟩ := Json.parts_array (childrenToJson t.blocks) pairError
  rw [treeToJson, treeOfJson, Json.field_of_valueOf? rfl, ok_bind, hparts, ok_bind,
    mapM_parts hitems, hentries, ok_bind, ofEntries_eq_self hdistinct]
  rfl

theorem indexOfJson_toJson (t : CompiledTemplate) : indexOfJson t.indexToJson = .ok t.index :=
  mapM_map_eq_ok fun _ _ => rfl

theorem tagsOfJson_toJson (h : compileTemplate code = .ok t) :
    tagsOfJson t.tagsToJson = .ok t.tags := by
  obtain ⟨compiled, -, h⟩ := exists_of_bind_eq_ok h
  cases h
  -- reading makes a set of the names, which loses none of them as they are stored without
  -- repetitions
  have hdistinct (texts : List String) (htexts : texts.Nodup) :
      DistinctKeys ((texts.map Key.text).map fun key => (key, ())) := by
    rw [DistinctKeys, List.pairwise_map, List.pairwise_map]
    refine htexts.imp fun hne => ?_
    simpa using hne
  rw [tagsToJson, tagsOfJson, Json.labels, ok_bind,
    mapM_map_eq_ok fun key _ => Key.ofJson_toJson key, ok_bind,
    ofEntries_eq_self (hdistinct _ (nodup_sortedUnique _)), List.map_map]
  exact congrArg Except.ok (List.map_id _)

/-- A compiled template is read back from its stored form. -/
theorem ofJson_toJson (h : compileTemplate code = .ok t) :
    CompiledTemplate.ofJson t.treeToJson t.indexToJson t.tagsToJson = .ok t := by
  rw [CompiledTemplate.ofJson, treeOfJson_toJson h, ok_bind, indexOfJson_toJson, ok_bind,
    tagsOfJson_toJson h]
  rfl

end CompiledTemplate

end BlockTemplate
