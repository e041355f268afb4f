import BlockTemplate.Proofs.Json.Value
import BlockTemplate.Proofs.Stored.Template

/-!
# Stored templates are read back from their text

In the stored form of a compiled template no two members of an object have one name, so that the
text of the stored form is read back, as long as JSON keeps its numbers and its nesting.

## Key results

- `holdsOfParts_namesAreDistinct`: the stored form of a node has distinct names
- `CompiledTemplate.parse_treeToJson`: the stored tree is read back from its text
- `CompiledTemplate.parse_indexToJson`: so is the stored index
- `CompiledTemplate.parse_tagsToJson`: so are the stored names of the tags
-/

namespace BlockTemplate

/-! ## Objects -/

namespace Json

theorem allItems_of_forall {P : Json → Prop} {items : List Json} (h : ∀ item ∈ items, item.All P) :
    AllItems P items := by
  induction items with
  | nil => trivial
  | cons item rest ih =>
    exact ⟨h _ List.mem_cons_self, ih fun j hj => h j (List.mem_cons_of_mem _ hj)⟩

theorem allMembers_of_forall {P : Json → Prop} {members : List (String × Json)}
    (h : ∀ member ∈ members, member.2.All P) : AllMembers P members := by
  induction members with
  | nil => trivial
  | cons member rest ih =>
    exact ⟨h _ List.mem_cons_self, ih fun j hj => h j (List.mem_cons_of_mem _ hj)⟩

/-- What is written as a list of names without repetition has distinct names. -/
theorem distinctKeys_of_nodup {members : List (String × Json)} (h : (members.map (·.1)).Nodup) :
    DistinctKeys members := by
  rw [List.Nodup, List.pairwise_map] at h
  exact h.imp fun hne => beq_eq_false_iff_ne.2 hne

/-- No two members of one name, here and within. -/
abbrev HasDistinctNames (j : Json) : Prop := j.All NamesAreDistinct

theorem hasDistinctNames_of_isText {label : Label} (h : label.isText) : label.HasDistinctNames := by
  cases label with
  | text s => trivial
  | _ => exact nomatch h

theorem hasDistinctNames_array {items : List Json} (h : ∀ item ∈ items, item.HasDistinctNames) :
    (array items).HasDistinctNames :=
  ⟨trivial, allItems_of_forall h⟩

theorem itemsDepth_le {n : Nat} {items : List Json} (h : ∀ item ∈ items, item.depth ≤ n) :
    itemsDepth items ≤ n := by
  induction items with
  | nil => exact Nat.zero_le n
  | cons item rest ih =>
    have hrest := ih fun j hj => h j (List.mem_cons_of_mem _ hj)
    exact Nat.max_le.2 ⟨h _ List.mem_cons_self, hrest⟩

theorem membersDepth_le {n : Nat} {members : List (String × Json)}
    (h : ∀ member ∈ members, member.2.depth ≤ n) : membersDepth members ≤ n := by
  induction members with
  | nil => exact Nat.zero_le n
  | cons member rest ih =>
    have hrest := ih fun j hj => h j (List.mem_cons_of_mem _ hj)
    exact Nat.max_le.2 ⟨h _ List.mem_cons_self, hrest⟩

end Json

/-! ## References -/

theorem Value.hasDistinctNames_toJson {value : Value} (h : value.isScalar) :
    value.toJson.HasDistinctNames := by
  cases value with
  | null | bool _ | number _ | text _ => trivial
  | sequence | mapping | object => exact nomatch h

mutual

theorem Reference.hasDistinctNames_toJson {r : Reference} (h : r.IsStorable) :
    r.toJson.HasDistinctNames := by
  match r with
  | .mk source name keys calls =>
    obtain ⟨⟨hsource, hname, hkeys⟩, hcalls⟩ := h
    -- the names of a record are fixed, so only what stands in the fields is left
    refine ⟨Json.distinctKeys_of_nodup (by simp), Json.hasDistinctNames_of_isText hsource,
      Json.hasDistinctNames_of_isText hname, ⟨trivial, Json.allItems_of_forall fun key hkey => ?_⟩,
      ⟨trivial, hasDistinctNames_callsToJson hcalls⟩, trivial⟩
    exact Json.hasDistinctNames_of_isText (hkeys key hkey)

theorem hasDistinctNames_callsToJson {calls : List Call} (h : CallsAreStorable calls) :
    Json.AllItems Json.NamesAreDistinct (callsToJson calls) := by
  match calls with
  | [] => trivial
  | .mk name none source :: rest =>
    obtain ⟨⟨hname, hsource⟩, hrest⟩ := h
    exact ⟨⟨Json.distinctKeys_of_nodup (by simp), Json.hasDistinctNames_of_isText hname, trivial,
      Json.hasDistinctNames_of_isText hsource, trivial⟩, hasDistinctNames_callsToJson hrest⟩
  | .mk name (some arguments) source :: rest =>
    obtain ⟨⟨hname, hsource⟩, harguments, hrest⟩ := h
    exact ⟨⟨Json.distinctKeys_of_nodup (by simp), Json.hasDistinctNames_of_isText hname,
      ⟨trivial, hasDistinctNames_argumentsToJson harguments⟩,
      Json.hasDistinctNames_of_isText hsource, trivial⟩, hasDistinctNames_callsToJson hrest⟩

theorem hasDistinctNames_argumentsToJson {arguments : List Argument}
    (h : ArgumentsAreStorable arguments) :
    Json.AllItems Json.NamesAreDistinct (argumentsToJson arguments) := by
  match arguments with
  | [] => trivial
  | argument :: rest =>
    exact ⟨Argument.hasDistinctNames_toJson h.1, hasDistinctNames_argumentsToJson h.2⟩

theorem Argument.hasDistinctNames_toJson {argument : Argument} (h : argument.IsStorable) :
    argument.toJson.HasDistinctNames := by
  match argument with
  | .literal value =>
    exact ⟨Json.distinctKeys_of_nodup (by simp), Value.hasDistinctNames_toJson h.1, trivial⟩
  | .text chunks => exact ⟨Json.distinctKeys_of_nodup (by simp), trivial, trivial⟩
  | .reference target =>
    have htarget : target.IsStorable := h
    exact ⟨Json.distinctKeys_of_nodup (by simp), Reference.hasDistinctNames_toJson htarget,
      trivial⟩

end

/-! ## Conditions -/

theorem Token.hasDistinctNames_toJson {token : Token}
    (h : ∀ value ∈ operands [token], value.IsStorable) : token.toJson.HasDistinctNames := by
  cases token with
  | operator op => exact ⟨Json.distinctKeys_of_nodup (by simp), trivial, trivial⟩
  | operand value => exact Argument.hasDistinctNames_toJson (h value List.mem_cons_self)

theorem Condition.hasDistinctNames_toJson {source : List Char} {c : Condition}
    (h : Condition.parse source = .ok c) : c.toJson.HasDistinctNames := by
  obtain ⟨hsource, hoperands⟩ := Condition.isStorable_of_parse h
  refine ⟨Json.distinctKeys_of_nodup (by simp), Json.hasDistinctNames_of_isText hsource,
    ⟨trivial, Json.allItems_of_forall fun item hitem => ?_⟩, trivial⟩
  obtain ⟨token, htoken, rfl⟩ := List.mem_map.1 hitem
  exact Token.hasDistinctNames_toJson fun value hvalue =>
    hoperands value (mem_operands_of_mem htoken hvalue)

/-! ## Nodes -/

theorem Piece.hasDistinctNames_toJson_toChunk (piece : Piece (List Char)) :
    piece.toChunk.toJson.HasDistinctNames := by
  cases piece with
  | literal chars => trivial
  | found body =>
    exact ⟨Json.distinctKeys_of_nodup (by simp),
      Reference.hasDistinctNames_toJson (Reference.isStorable_parse body), trivial⟩

theorem Key.hasDistinctNames_toJson (key : Key) : key.toJson.HasDistinctNames := by
  cases key <;> trivial

theorem depth_array_toJson (keys : List Key) : (Json.array (keys.map Key.toJson)).depth ≤ 1 := by
  refine Nat.succ_le_succ (Json.itemsDepth_le fun item hitem => ?_)
  obtain ⟨key, -, rfl⟩ := List.mem_map.1 hitem
  cases key <;> exact Nat.le_refl 0

/-- The stored form of a node has distinct names. -/
def Node.StoresDistinctNames (node : Node) : Prop := node.toJson.HasDistinctNames

theorem hasDistinctNames_childrenToJson {children : Children}
    (h : ∀ entry ∈ children, entry.2.StoresDistinctNames) :
    (Json.array (childrenToJson children)).HasDistinctNames := by
  refine ⟨trivial, ?_⟩
  induction children with
  | nil => trivial
  | cons entry rest ih =>
    obtain ⟨key, node⟩ := entry
    have hnode : node.toJson.HasDistinctNames := h _ List.mem_cons_self
    exact ⟨⟨trivial, key.hasDistinctNames_toJson, hnode, trivial⟩,
      ih fun e he => h e (List.mem_cons_of_mem _ he)⟩

/-- The stored form of a compiled node has distinct names if those of its children have. -/
theorem holdsOfParts_storesDistinctNames : HoldsOfParts Node.StoresDistinctNames where
  data text := by
    refine ⟨Json.distinctKeys_of_nodup (by simp), trivial,
      ⟨trivial, Json.allItems_of_forall fun item hitem => ?_⟩, trivial⟩
    obtain ⟨chunk, hchunk, rfl⟩ := List.mem_map.1 hitem
    -- the chunks of literal text come from its pieces, whose tags are parsed
    rw [dataChunks_eq_map_toChunk] at hchunk
    obtain ⟨piece, -, rfl⟩ := List.mem_map.1 hchunk
    exact piece.hasDistinctNames_toJson_toChunk
  block name children _ hchildren :=
    ⟨Json.distinctKeys_of_nodup (by simp), trivial, trivial,
      hasDistinctNames_childrenToJson hchildren, trivial⟩
  loop text header children hparse _ hchildren := by
    obtain ⟨⟨body, hbody⟩, hkeyVar, hvalueVar⟩ := LoopHeader.exists_of_parse? hparse
    have hcollection : header.collection.toJson.HasDistinctNames := by
      rw [hbody]
      exact Reference.hasDistinctNames_toJson (Reference.isStorable_parse body)
    have hkey : (header.keyVar.getD .null).HasDistinctNames := by
      obtain hnone | ⟨name, hname⟩ := hkeyVar
      · rw [hnone]
        trivial
      · rw [hname]
        trivial
    exact ⟨Json.distinctKeys_of_nodup (by simp), trivial, hkey,
      Json.hasDistinctNames_of_isText hvalueVar, hcollection,
      hasDistinctNames_childrenToJson hchildren, trivial⟩
  conditional source condition ifChildren elseChildren hparse _ hifChildren _ helseChildren :=
    ⟨Json.distinctKeys_of_nodup (by simp), trivial, Condition.hasDistinctNames_toJson hparse,
      hasDistinctNames_childrenToJson hifChildren, hasDistinctNames_childrenToJson helseChildren,
      trivial⟩

/-! ## Templates -/

namespace CompiledTemplate

variable {code : List Char} {t : CompiledTemplate}

theorem hasDistinctNames_treeToJson (h : compileTemplate code = .ok t) :
    t.treeToJson.HasDistinctNames := by
  obtain ⟨-, hblocks⟩ := forall_blocks_of_compileTemplate holdsOfParts_storesDistinctNames h
  have hchildren := hasDistinctNames_childrenToJson fun entry hentry => (hblocks entry hentry).1
  exact ⟨Json.distinctKeys_of_nodup (by simp), trivial, hchildren, trivial⟩

/-- The places of blocks are lists of keys, and the names of blocks are distinct. -/
theorem exists_index_of_compileTemplate (h : compileTemplate code = .ok t) :
    ∃ paths : List (String × BlockPath), DistinctKeys paths
      ∧ t.index = paths.map fun (name, path) => (name, path.map Key.toJson) := by
  obtain ⟨compiled, -, h⟩ := exists_of_bind_eq_ok h
  cases h
  exact ⟨_, distinctKeys_ofEntries _, rfl⟩

theorem hasDistinctNames_indexToJson (h : compileTemplate code = .ok t) :
    t.indexToJson.HasDistinctNames := by
  obtain ⟨paths, hdistinct, hindex⟩ := exists_index_of_compileTemplate h
  rw [indexToJson, hindex, List.map_map]
  refine ⟨?_, Json.allMembers_of_forall fun member hmember => ?_⟩
  · rw [Json.NamesAreDistinct, DistinctKeys, List.pairwise_map]
    exact hdistinct
  · obtain ⟨⟨name, path⟩, -, rfl⟩ := List.mem_map.1 hmember
    refine Json.hasDistinctNames_array fun item hitem => ?_
    obtain ⟨key, -, rfl⟩ := List.mem_map.1 hitem
    exact key.hasDistinctNames_toJson

theorem hasDistinctNames_tagsToJson (t : CompiledTemplate) : t.tagsToJson.HasDistinctNames := by
  refine Json.hasDistinctNames_array fun item hitem => ?_
  obtain ⟨key, -, rfl⟩ := List.mem_map.1 hitem
  exact key.hasDistinctNames_toJson

/-- The stored tree is read back from its text. -/
theorem parse_treeToJson (h : compileTemplate code = .ok t)
    (hnumbers : t.treeToJson.All Json.NumberReadsBack)
    (hdepth : t.treeToJson.depth ≤ Json.mostOpen) :
    Json.parse t.treeToJson.spacedText.toList = .ok t.treeToJson :=
  Json.parse_spacedText hnumbers (hasDistinctNames_treeToJson h) hdepth

/-- The stored index is read back from its text. -/
theorem parse_indexToJson (h : compileTemplate code = .ok t)
    (hnumbers : t.indexToJson.All Json.NumberReadsBack) :
    Json.parse t.indexToJson.spacedText.toList = .ok t.indexToJson := by
  obtain ⟨paths, -, hindex⟩ := exists_index_of_compileTemplate h
  -- a list of keys in a record: two levels, whatever the template
  have hdepth : t.indexToJson.depth ≤ 2 := by
    rw [indexToJson, hindex, List.map_map]
    refine Nat.succ_le_succ (Json.membersDepth_le fun member hmember => ?_)
    obtain ⟨⟨name, path⟩, -, rfl⟩ := List.mem_map.1 hmember
    exact depth_array_toJson path
  exact Json.parse_spacedText hnumbers (hasDistinctNames_indexToJson h)
    (Nat.le_trans hdepth (by decide))

/-- The names of tags are texts. -/
theorem exists_tags_of_compileTemplate (h : compileTemplate code = .ok t) :
    ∃ names : List String, t.tags = names.map .text := by
  obtain ⟨compiled, -, h⟩ := exists_of_bind_eq_ok h
  cases h
  exact ⟨_, rfl⟩

/-- The stored names of the tags are read back from their text. -/
theorem parse_tagsToJson (h : compileTemplate code = .ok t) :
    Json.parse t.tagsToJson.spacedText.toList = .ok t.tagsToJson := by
  have hdepth := Nat.le_trans (depth_array_toJson t.tags) (by decide : 1 ≤ Json.mostOpen)
  -- no number is stored here
  have hnumbers : t.tagsToJson.All Json.NumberReadsBack := by
    obtain ⟨names, htags⟩ := exists_tags_of_compileTemplate h
    refine ⟨trivial, Json.allItems_of_forall fun item hitem => ?_⟩
    rw [htags, List.map_map] at hitem
    obtain ⟨name, -, rfl⟩ := List.mem_map.1 hitem
    trivial
  exact Json.parse_spacedText hnumbers t.hasDistinctNames_tagsToJson hdepth

end CompiledTemplate

end BlockTemplate
