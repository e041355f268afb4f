import BlockTemplate.Proofs.Template.Parts

/-!
# The index of a template

The index leads from the full name of a block to the block. A path in it ends at a block of the last
name on it or at nothing, and it ends at nothing only where a block has been defined again. Where no
two blocks have one full name, the index lists all blocks of the template, each once and in the
order of the text, and every path ends at its own block.

## Key results

- `follow_of_last`: a path to a name ends at a block of the name, or at nothing
- `childrenBlocks_ofEntries`: with distinct names the blocks of the nodes are those of the text
- `follow_of_mem_partsBlocks`: with distinct names the path of a block ends at the block
-/

namespace BlockTemplate

/-! ## Blocks are keyed by their names -/

/-- Whether a node is a block of the name that it is keyed by, if that is a name. -/
def FitsKey (key : Key) (node : Node) : Prop :=
  ∀ name, key == .text name → ∃ children, node = .block (.text name) children

mutual

/-- Whether what is keyed by a text within a node is a block of that name. -/
def Node.IsKeyed : Node → Prop
  | .data _ => True
  | .block _ children | .loop _ children => AreKeyed children
  | .conditional _ ifChildren elseChildren => AreKeyed ifChildren ∧ AreKeyed elseChildren

/-- Whether what is keyed by a text, among nodes and within them, is a block of that name. -/
def AreKeyed : List (Key × Node) → Prop
  | [] => True
  | (key, node) :: rest =>
    FitsKey key node ∧ node.IsKeyed ∧ AreKeyed rest

end

theorem areKeyed_iff {nodes : Children} :
    AreKeyed nodes ↔ ∀ entry ∈ nodes, FitsKey entry.1 entry.2 ∧ entry.2.IsKeyed := by
  induction nodes with
  | nil => exact ⟨fun _ => List.forall_mem_nil _, fun _ => trivial⟩
  | cons entry rest ih =>
    rw [List.forall_mem_cons, ← ih]
    exact ⟨fun ⟨hkey, hnode, hrest⟩ => ⟨⟨hkey, hnode⟩, hrest⟩,
      fun ⟨⟨hkey, hnode⟩, hrest⟩ => ⟨hkey, hnode, hrest⟩⟩

/-- Setting keys keeps blocks keyed by their names. -/
theorem AreKeyed.ofEntries {entries : Children} (h : AreKeyed entries) :
    AreKeyed (ofEntries entries) := by
  rw [areKeyed_iff] at h ⊢
  refine forall_mem_ofEntries_of_congr (P := fun key node => FitsKey key node ∧ node.IsKeyed) ?_ h
  intro key other node heq ⟨hfits, hnode⟩
  exact ⟨fun name hname => hfits name (BEq.trans (BEq.symm heq) hname), hnode⟩

mutual

theorem UnitPart.isKeyed_node : ∀ part : UnitPart, part.node.IsKeyed
  | .text _ => trivial
  | .block _ _ body | .loop _ _ body => (areKeyed_partEntries 0 body).ofEntries
  | .conditional _ _ ifBody elseBody =>
    ⟨(areKeyed_partEntries 0 ifBody).ofEntries, (areKeyed_partEntries 0 elseBody).ofEntries⟩

theorem areKeyed_partEntries (number : Nat) :
    ∀ parts : List UnitPart, AreKeyed (partEntries number parts)
  | [] => trivial
  | part :: rest => by
    refine ⟨fun name hname => ?_, part.isKeyed_node, areKeyed_partEntries _ rest⟩
    cases part with
    | block other markers body =>
      rw [UnitPart.key, Key.text_beq_text, beq_iff_eq] at hname
      rw [hname]
      exact ⟨_, rfl⟩
    | _ => exact absurd hname (by simp [UnitPart.key])

end

/-! ## Following a path -/

/-- Whether what is keyed by a text at a place is a block of that name. -/
def Place.IsKeyed : Place → Prop
  | .node n => n.IsKeyed
  | .level nodes => AreKeyed nodes

/-- Whether a place is a block of some name. -/
def Place.IsBlock (name : String) (place : Place) : Prop :=
  ∃ children, place = .node (.block (.text name) children)

/-- A key leads from nodes to one of them, if to anything. -/
theorem child_toJson (key : Key) (nodes : Children) :
    Place.child key.toJson nodes
      = .ok ((entryOf? key nodes).map fun entry => (entry.1, .node entry.2)) := by
  rw [Place.child, Json.toKey, Json.key?_toJson]
  rfl

theorem exists_child (key : Key) {nodes : Children} (h : AreKeyed nodes) :
    ∃ next, Place.child key.toJson nodes = .ok next
      ∧ ∀ found ∈ next, found.2.IsKeyed ∧ ∀ name, key = .text name → found.2.IsBlock name := by
  refine ⟨_, child_toJson key nodes, fun found hfound => ?_⟩
  obtain ⟨entry, hentry, rfl⟩ := Option.map_eq_some_iff.1 hfound
  obtain ⟨hmem, hkey⟩ := mem_of_entryOf? hentry
  obtain ⟨hblock, hnode⟩ := areKeyed_iff.1 h entry hmem
  refine ⟨hnode, ?_⟩
  rintro name rfl
  obtain ⟨children, heq⟩ := hblock name hkey
  exact ⟨children, congrArg Place.node heq⟩

/-- A key leads from a place to one within it, if to anything, and a name leads to a block. -/
theorem exists_step (key : Key) {place : Place} (h : place.IsKeyed) :
    ∃ next, place.step key.toJson = .ok next
      ∧ ∀ found ∈ next, found.2.IsKeyed ∧ ∀ name, key = .text name → found.2.IsBlock name := by
  match place, h with
  | .level nodes, h => exact exists_child key h
  | .node (.block _ children), h => exact exists_child key h
  | .node (.loop _ children), h => exact exists_child key h
  | .node (.data _), _ => exact ⟨none, rfl, fun _ hnone => absurd hnone (Option.not_mem_none _)⟩
  | .node (.conditional _ ifChildren elseChildren), ⟨hif, helse⟩ =>
    refine ⟨_, rfl, fun found hfound => ?_⟩
    unfold Place.branch? at hfound
    -- the branches have numbers, so that no name leads to one
    split at hfound
    · rename_i hzero
      cases hfound
      refine ⟨hif, ?_⟩
      rintro name rfl
      simp [Key.toJson, Json.key?] at hzero
    · split at hfound
      · rename_i hone
        cases hfound
        refine ⟨helse, ?_⟩
        rintro name rfl
        simp [Key.toJson, Json.key?] at hone
      · exact nomatch hfound

/-- A path to a name ends at a block of the name, or at nothing. -/
theorem follow_of_last (path : BlockPath) (name : String) {place : Place} (h : place.IsKeyed) :
    ∃ found, place.follow ((path ++ [Key.text name]).map Key.toJson) = .ok found
      ∧ ∀ block ∈ found, block.2.IsBlock name := by
  induction path generalizing place with
  | nil =>
    obtain ⟨next, hnext, hfound⟩ := exists_step (Key.text name) h
    rw [List.nil_append, List.map_singleton, Place.follow, hnext, ok_bind]
    cases next with
    | none => exact ⟨none, rfl, fun _ hnone => absurd hnone (Option.not_mem_none _)⟩
    | some next =>
      refine ⟨_, rfl, ?_⟩
      rintro block ⟨⟩
      exact (hfound next rfl).2 name rfl
  | cons key rest ih =>
    obtain ⟨next, hnext, hfound⟩ := exists_step key h
    rw [List.cons_append, List.map_cons, Place.follow, hnext, ok_bind]
    -- what is followed further starts from a place that is keyed as well
    cases next with
    | none => exact ⟨none, rfl, fun _ hnone => absurd hnone (Option.not_mem_none _)⟩
    | some next =>
      obtain ⟨found, hfollow, hblock⟩ := ih (hfound next rfl).1
      dsimp only
      rw [hfollow]
      refine ⟨_, rfl, fun block hmem => ?_⟩
      obtain ⟨inner, hinner, rfl⟩ := Option.map_eq_some_iff.1 hmem
      exact hblock inner hinner

/-! ## The blocks of a tree -/

mutual

/-- The blocks in a node at a path, itself included, with their paths. -/
def Node.blocksAt (path : BlockPath) : Node → List (BlockPath × Node)
  | .data _ => []
  | .block name children => (path, .block name children) :: childrenBlocks path children
  | .loop _ children => childrenBlocks path children
  | .conditional _ ifChildren elseChildren =>
    childrenBlocks (path ++ [.int 0]) ifChildren ++ childrenBlocks (path ++ [.int 1]) elseChildren

/-- The blocks in nodes at any depth, with their paths. -/
def childrenBlocks (path : BlockPath) : List (Key × Node) → List (BlockPath × Node)
  | [] => []
  | (key, node) :: rest => node.blocksAt (path ++ [key]) ++ childrenBlocks path rest

end

-- nodes with distinct keys are the entries of the same parts, hence the second component
mutual

theorem UnitPart.blocksAt_node (path : BlockPath) : ∀ {part : UnitPart}, part.HasDistinctNames →
    part.node.blocksAt path = part.blocks path
  | .text _, _ => rfl
  | .block name markers body, h => by
    rw [UnitPart.blocks, UnitPart.node, Node.blocksAt, childrenBlocks_ofEntries path h]
  | .loop _ _ body, h => by
    rw [UnitPart.blocks, UnitPart.node, Node.blocksAt, childrenBlocks_ofEntries path h]
  | .conditional _ _ ifBody elseBody, ⟨hif, helse⟩ => by
    rw [UnitPart.blocks, UnitPart.node, Node.blocksAt, childrenBlocks_ofEntries _ hif,
      childrenBlocks_ofEntries _ helse]
termination_by part => (sizeOf part, 0)

theorem childrenBlocks_partEntries (path : BlockPath) (number : Nat) :
    ∀ {parts : List UnitPart}, HaveDistinctNames parts →
      childrenBlocks path (partEntries number parts) = partsBlocks path number parts
  | [], _ => rfl
  | part :: rest, ⟨hpart, _, hrest⟩ => by
    rw [partEntries, childrenBlocks, part.blocksAt_node _ hpart,
      childrenBlocks_partEntries path _ hrest, partsBlocks]
termination_by parts => (sizeOf parts, 0)

/-- Where names are distinct, the blocks of the children are those of the parts. -/
theorem childrenBlocks_ofEntries (path : BlockPath) {parts : List UnitPart}
    (h : HaveDistinctNames parts) :
    childrenBlocks path (ofEntries (partEntries 0 parts)) = partsBlocks path 0 parts := by
  rw [ofEntries_eq_self (distinctKeys_partEntries h 0), childrenBlocks_partEntries path 0 h]
termination_by (sizeOf parts, 1)

end

/-! ## Ways to blocks -/

/-- A way that starts with a step. -/
theorem follow_of_step {place next found : Place} {key : Key} {way : BlockPath}
    (hstep : place.step key.toJson = .ok (some (key, next)))
    (h : next.follow (way.map Key.toJson) = .ok (some (way, found))) :
    place.follow ((key :: way).map Key.toJson) = .ok (some (key :: way, found)) := by
  rw [List.map_cons, Place.follow, hstep, ok_bind]
  dsimp only
  rw [h]
  rfl

mutual

/-- Where names are distinct, the way to a block within a part ends at the block. -/
theorem UnitPart.follow_of_mem_blocks (path : BlockPath) {block : BlockPath × Node} :
    ∀ {part : UnitPart}, part.HasDistinctNames → block ∈ part.blocks path →
      ∃ way, block.1 = path ++ way
        ∧ (Place.node part.node).follow (way.map Key.toJson) = .ok (some (way, .node block.2))
  | .text _, _, hmem => nomatch hmem
  | .block name markers body, h, hmem => by
    rcases List.mem_cons.1 hmem with rfl | hmem
    · exact ⟨[], (List.append_nil path).symm, rfl⟩
    · obtain ⟨key, way, hway, hfollow⟩ := follow_of_mem_partsBlocks path h hmem
      exact ⟨key :: way, hway, hfollow⟩
  | .loop _ _ body, h, hmem => by
    obtain ⟨key, way, hway, hfollow⟩ := follow_of_mem_partsBlocks path h hmem
    exact ⟨key :: way, hway, hfollow⟩
  | .conditional _ _ ifBody elseBody, ⟨hif, helse⟩, hmem => by
    rcases List.mem_append.1 hmem with hmem | hmem
    · obtain ⟨key, way, hway, hfollow⟩ := follow_of_mem_partsBlocks _ hif hmem
      exact ⟨.int 0 :: key :: way, by rw [hway, List.append_assoc]; rfl, follow_of_step rfl hfollow⟩
    · obtain ⟨key, way, hway, hfollow⟩ := follow_of_mem_partsBlocks _ helse hmem
      exact ⟨.int 1 :: key :: way, by rw [hway, List.append_assoc]; rfl, follow_of_step rfl hfollow⟩
termination_by part => (sizeOf part, 0)

/-- Where names are distinct, the way to a block among parts ends at the block. -/
theorem follow_of_mem_partsBlocks (path : BlockPath) {parts : List UnitPart}
    {block : BlockPath × Node} (h : HaveDistinctNames parts)
    (hmem : block ∈ partsBlocks path 0 parts) :
    ∃ key way, block.1 = path ++ key :: way
      ∧ (Place.level (ofEntries (partEntries 0 parts))).follow ((key :: way).map Key.toJson)
        = .ok (some (key :: way, .node block.2)) := by
  rw [ofEntries_eq_self (distinctKeys_partEntries h 0)]
  exact follow_of_mem_partsFrom path 0 h (distinctKeys_partEntries h 0) (fun _ he => he) hmem
termination_by (sizeOf parts, 1)

theorem follow_of_mem_partsFrom (path : BlockPath) (number : Nat) {nodes : Children}
    {block : BlockPath × Node} : ∀ {parts : List UnitPart}, HaveDistinctNames parts →
      DistinctKeys nodes → (∀ entry ∈ partEntries number parts, entry ∈ nodes) →
      block ∈ partsBlocks path number parts →
      ∃ key way, block.1 = path ++ key :: way
        ∧ (Place.level nodes).follow ((key :: way).map Key.toJson)
          = .ok (some (key :: way, .node block.2))
  | [], _, _, _, hmem => nomatch hmem
  | part :: rest, ⟨hpart, _, hrest⟩, hdistinct, hnodes, hmem => by
    obtain ⟨hfirst, hothers⟩ := List.forall_mem_cons.1 hnodes
    rcases List.mem_append.1 hmem with hmem | hmem
    · obtain ⟨way, hway, hfollow⟩ := part.follow_of_mem_blocks _ hpart hmem
      have hstep : (Place.level nodes).step (part.key number).toJson
          = .ok (some (part.key number, .node part.node)) := by
        rw [Place.step, child_toJson, entryOf?_of_mem hdistinct hfirst]
        rfl
      exact ⟨part.key number, way, by rw [hway, List.append_assoc]; rfl,
        follow_of_step hstep hfollow⟩
    · exact follow_of_mem_partsFrom path _ hrest hdistinct hothers hmem
termination_by parts => (sizeOf parts, 0)

end

/-! ## Full names -/

/-- The full names of blocks. -/
def fullNames (blocks : List (BlockPath × Node)) : List String := blocks.map fun b => fullName b.1

theorem fullNames_append (blocks more : List (BlockPath × Node)) :
    fullNames (blocks ++ more) = fullNames blocks ++ fullNames more :=
  List.map_append

mutual

/-- The path of a block ends with its name. -/
theorem UnitPart.ends_of_mem_blocks (init : BlockPath) (number : Nat) {block : BlockPath × Node} :
    ∀ {part : UnitPart}, block ∈ part.blocks (init ++ [part.key number]) →
      ∃ front last, block.1 = front ++ [.text last]
  | .text _, hmem => nomatch hmem
  | .block name _ _, hmem => by
    rcases List.mem_cons.1 hmem with rfl | hmem
    · exact ⟨init, name, rfl⟩
    · exact ends_of_mem_partsBlocks _ 0 hmem
  | .loop _ _ _, hmem => ends_of_mem_partsBlocks _ 0 hmem
  | .conditional _ _ _ _, hmem => by
    rcases List.mem_append.1 hmem with hmem | hmem
    · exact ends_of_mem_partsBlocks _ 0 hmem
    · exact ends_of_mem_partsBlocks _ 0 hmem

theorem ends_of_mem_partsBlocks (path : BlockPath) (number : Nat) {block : BlockPath × Node} :
    ∀ {parts : List UnitPart}, block ∈ partsBlocks path number parts →
      ∃ front last, block.1 = front ++ [.text last]
  | [], hmem => nomatch hmem
  | part :: _, hmem => by
    rcases List.mem_append.1 hmem with hmem | hmem
    · exact part.ends_of_mem_blocks path number hmem
    · exact ends_of_mem_partsBlocks path _ hmem

end

/-- A block among parts has a path. -/
theorem exists_mem_partsBlocks (path : BlockPath) (number : Nat) {name : String}
    {parts : List UnitPart} (h : name ∈ parts.filterMap UnitPart.blockName?) :
    ∃ node, (path ++ [.text name], node) ∈ partsBlocks path number parts := by
  induction parts generalizing number with
  | nil => exact nomatch h
  | cons part rest ih =>
    obtain ⟨other, hother, hname⟩ := List.mem_filterMap.1 h
    rcases List.mem_cons.1 hother with rfl | hother
    · cases other with
      | block first markers body =>
        cases hname
        exact ⟨_, List.mem_append_left _ List.mem_cons_self⟩
      | _ => exact nomatch hname
    · obtain ⟨node, hnode⟩ :=
        ih (part.nextNumber number) (List.mem_filterMap.2 ⟨other, hother, hname⟩)
      exact ⟨node, List.mem_append_right _ hnode⟩

mutual

/-- Two blocks of one name next to each other would have one full name. -/
theorem UnitPart.hasDistinctNames_of_nodup (path : BlockPath) :
    ∀ {part : UnitPart}, (fullNames (part.blocks path)).Nodup → part.HasDistinctNames
  | .text _, _ => trivial
  | .block _ _ _, h => haveDistinctNames_of_nodup path 0 (List.nodup_cons.1 h).2
  | .loop _ _ _, h => haveDistinctNames_of_nodup path 0 h
  | .conditional _ _ _ _, h => by
    rw [UnitPart.blocks, fullNames_append] at h
    obtain ⟨hif, helse, -⟩ := List.nodup_append.1 h
    exact ⟨haveDistinctNames_of_nodup _ 0 hif, haveDistinctNames_of_nodup _ 0 helse⟩

theorem haveDistinctNames_of_nodup (path : BlockPath) (number : Nat) :
    ∀ {parts : List UnitPart}, (fullNames (partsBlocks path number parts)).Nodup →
      HaveDistinctNames parts
  | [], _ => trivial
  | part :: rest, h => by
    rw [partsBlocks, fullNames_append] at h
    obtain ⟨hpart, hrest, hdisjoint⟩ := List.nodup_append.1 h
    refine ⟨part.hasDistinctNames_of_nodup _ hpart, fun name hname hmem => ?_,
      haveDistinctNames_of_nodup path _ hrest⟩
    -- another block of the name would be at the same path
    obtain ⟨node, hnode⟩ := exists_mem_partsBlocks path (part.nextNumber number) hmem
    have hself : fullName (path ++ [.text name])
        ∈ fullNames (part.blocks (path ++ [part.key number])) := by
      cases part with
      | block first markers body =>
        cases hname
        exact List.mem_cons_self
      | _ => exact nomatch hname
    exact hdisjoint _ hself _ (List.mem_map.2 ⟨_, hnode, rfl⟩) rfl

end

/-! ## The index of a compiled template -/

section
variable {code : List Char} {t : CompiledTemplate}

/-- An entry of the index: the full name of a path that ends with a name, and that path. -/
structure IsIndexed (entry : String × List Label) (path : BlockPath) (last : String) : Prop where
  labels_eq : entry.2 = (path ++ [Key.text last]).map Key.toJson
  name_eq : entry.1 = fullName (path ++ [.text last])

theorem isIndexed_of_mem_index (ht : compileTemplate code = .ok t) :
    DistinctKeys t.index ∧ ∀ entry ∈ t.index, ∃ path last, IsIndexed entry path last := by
  obtain ⟨parts, -, -, hindex⟩ := exists_parts_of_compileTemplate ht
  have hdistinct := distinctKeys_ofEntries (namedPaths (partsBlocks [] 0 parts))
  have hnamed : ∀ entry ∈ ofEntries (namedPaths (partsBlocks [] 0 parts)),
      entry.1 = fullName entry.2 ∧ ∃ front last, entry.2 = front ++ [.text last] := by
    refine forall_mem_ofEntries_of_congr
      (P := fun name path => name = fullName path ∧ ∃ front last, path = front ++ [Key.text last])
      (fun heq hother => ⟨(eq_of_beq heq).trans hother.1, hother.2⟩) fun entry hentry => ?_
    obtain ⟨block, hblock, rfl⟩ := List.mem_map.1 hentry
    exact ⟨rfl, ends_of_mem_partsBlocks [] 0 hblock⟩
  rw [hindex]
  refine ⟨List.pairwise_map.2 hdistinct, fun entry hentry => ?_⟩
  obtain ⟨named, hmem, rfl⟩ := List.mem_map.1 hentry
  obtain ⟨hname, front, last, hpath⟩ := hnamed named hmem
  exact ⟨front, last, congrArg (List.map Key.toJson) hpath, by rw [← hpath]; exact hname⟩

/-- The blocks of a compiled template are keyed by their names. -/
theorem areKeyed_blocks (ht : compileTemplate code = .ok t) : AreKeyed t.blocks := by
  obtain ⟨parts, -, hblocks, -⟩ := exists_parts_of_compileTemplate ht
  rw [hblocks]
  exact (areKeyed_partEntries 0 parts).ofEntries

theorem locate_eq_follow {name : String} {labels : List Label}
    (h : valueOf? name t.index = some labels) (hne : labels ≠ []) :
    t.locate name = (Place.level t.blocks).follow labels := by
  rw [CompiledTemplate.locate, h]
  cases labels with
  | nil => exact absurd rfl hne
  | cons label rest => rfl

/-- The name of an entry leads to a block of the last name on its path, or to nothing. -/
theorem exists_locate_of_mem_index (ht : compileTemplate code = .ok t)
    {entry : String × List Label} (hentry : entry ∈ t.index) :
    ∃ path last, IsIndexed entry path last
      ∧ ∃ found, t.locate entry.1 = .ok found ∧ ∀ block ∈ found, block.2.IsBlock last := by
  obtain ⟨hdistinct, hindexed⟩ := isIndexed_of_mem_index ht
  obtain ⟨path, last, h⟩ := hindexed entry hentry
  refine ⟨path, last, h, ?_⟩
  have hne : entry.2 ≠ [] := by
    rw [h.labels_eq]
    simp
  rw [locate_eq_follow (valueOf?_of_mem hdistinct hentry) hne, h.labels_eq]
  exact follow_of_last path last (areKeyed_blocks ht : (Place.level t.blocks).IsKeyed)

/-- Any name leads to a block, or to nothing. -/
theorem exists_locate (ht : compileTemplate code = .ok t) (name : String) :
    ∃ found, t.locate name = .ok found ∧ ∀ block ∈ found, ∃ last, block.2.IsBlock last := by
  cases hlabels : valueOf? name t.index with
  | none =>
    rw [CompiledTemplate.locate, hlabels]
    exact ⟨none, rfl, fun _ hnone => absurd hnone (Option.not_mem_none _)⟩
  | some labels =>
    obtain ⟨entry, hentry, -⟩ := Option.map_eq_some_iff.1
      (valueOf?_eq_map_entryOf? name t.index ▸ hlabels)
    obtain ⟨hmem, hname⟩ := mem_of_entryOf? hentry
    obtain ⟨path, last, -, found, hfound, hblock⟩ := exists_locate_of_mem_index ht hmem
    rw [eq_of_beq hname] at hfound
    exact ⟨found, hfound, fun block hb => ⟨last, hblock block hb⟩⟩

/-- Where no two blocks have one full name, the index lists the blocks of the text, the template has
    these blocks and no others, and each of their names leads to its own block. -/
theorem index_of_nodup {parts : List UnitPart}
    (hblocks : t.blocks = ofEntries (partEntries 0 parts))
    (hindex : t.index = (ofEntries (namedPaths (partsBlocks [] 0 parts))).map fun (name, path) =>
      (name, path.map Key.toJson))
    (hnodup : (fullNames (partsBlocks [] 0 parts)).Nodup) :
    t.index = (partsBlocks [] 0 parts).map (fun b => (fullName b.1, b.1.map Key.toJson))
      ∧ childrenBlocks [] t.blocks = partsBlocks [] 0 parts
      ∧ ∀ block ∈ partsBlocks [] 0 parts,
        t.locate (fullName block.1) = .ok (some (block.1, .node block.2)) := by
  have hnames := haveDistinctNames_of_nodup [] 0 hnodup
  have hdistinct : DistinctKeys (namedPaths (partsBlocks [] 0 parts)) := by
    rw [DistinctKeys, namedPaths, List.pairwise_map]
    exact (List.pairwise_map.1 hnodup).imp beq_eq_false_iff_ne.2
  have hlisted : t.index
      = (partsBlocks [] 0 parts).map (fun b => (fullName b.1, b.1.map Key.toJson)) := by
    rw [hindex, ofEntries_eq_self hdistinct, namedPaths, List.map_map]
    rfl
  refine ⟨hlisted, by rw [hblocks, childrenBlocks_ofEntries [] hnames], fun block hblock => ?_⟩
  obtain ⟨key, way, hway, hfollow⟩ := follow_of_mem_partsBlocks [] hnames hblock
  have hkeys : DistinctKeys t.index := by
    rw [hlisted, DistinctKeys, List.pairwise_map]
    exact (List.pairwise_map.1 hnodup).imp beq_eq_false_iff_ne.2
  have hvalue := valueOf?_of_mem hkeys (hlisted ▸ List.mem_map.2 ⟨block, hblock, rfl⟩)
  rw [List.nil_append] at hway
  rw [locate_eq_follow hvalue (by rw [hway]; simp), hblocks, hway, hfollow]

end

end BlockTemplate
