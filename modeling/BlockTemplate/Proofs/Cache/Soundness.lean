import BlockTemplate.Proofs.Cache.Names
import BlockTemplate.Proofs.Cache.RoundTrip
import BlockTemplate.Proofs.Directory.Place
import BlockTemplate.Proofs.Template.Index
import BlockTemplate.Session.Open

/-!
# Soundness of the cache

All files in the folder of the cache are those of templates that have been compiled, or drafts of
them. What is loaded under the names that belong to a source is then what the source compiles to,
as long as digests tell sources apart and JSON keeps what is stored.

## Key results

- `Cache.IsSound.store`: storing a template keeps the cache sound, even if it fails
- `Cache.ofSource_of_load`: what is loaded for a source is what it compiles to
-/

namespace BlockTemplate

/-- What the cache stores in a file of a template. -/
def ArtifactPart.toJson (t : CompiledTemplate) : ArtifactPart → Json
  | tree => t.treeToJson
  | index => t.indexToJson
  | tags => t.tagsToJson

/-- Whether JSON keeps what is stored of a template: the numbers in it and the depth of its tree. -/
structure CompiledTemplate.IsKept (t : CompiledTemplate) : Prop where
  treeNumbers : t.treeToJson.All Json.NumberReadsBack
  indexNumbers : t.indexToJson.All Json.NumberReadsBack
  depth : t.treeToJson.depth ≤ Json.mostOpen

/-! ## Stored parts are told apart -/

namespace CompiledTemplate

variable {code : List Char} {t : CompiledTemplate}

/-- The stored root blocks are no index: the version is no path. -/
theorem indexOfJson_treeToJson_ne_ok (t : CompiledTemplate) (index : List (String × List Label)) :
    indexOfJson t.treeToJson ≠ .ok index :=
  fun h => nomatch h

theorem rootEntryOfJson_key_ne_ok (key : Key) (entry : Key × Node) :
    rootEntryOfJson key.toJson ≠ .ok entry := by
  intro h
  obtain ⟨pair, hpair, -⟩ := exists_of_bind_eq_ok h
  cases key with
  | text _ | int _ | bool _ | real _ | null => exact nomatch hpair

/-- A stored index holds no root blocks: a path starts with a key, which is no block. -/
theorem treeOfJson_indexToJson_ne_ok (h : compileTemplate code = .ok t) (blocks : Children) :
    treeOfJson t.indexToJson ≠ .ok blocks := by
  intro hblocks
  obtain ⟨field, hfield, hblocks⟩ := exists_of_bind_eq_ok hblocks
  cases hvalue : valueOf? "blocks" (t.index.map fun entry => (entry.1, Json.array entry.2)) with
  | none =>
    unfold indexToJson Json.field at hfield
    dsimp only at hfield
    split at hfield
    · rename_i hsome
      cases hvalue.symm.trans hsome
    · cases hfield
  | some part =>
    cases (Json.field_of_valueOf? hvalue).symm.trans hfield
    obtain ⟨entry, hentry, rfl, -⟩ := mem_of_valueOf? hvalue
    obtain ⟨⟨name, labels⟩, hmem, rfl⟩ := List.mem_map.1 hentry
    obtain ⟨path, last, hindexed⟩ := (isIndexed_of_mem_index h).2 _ hmem
    obtain ⟨parts, hparts, hitems⟩ := Json.parts_array labels pairError
    obtain ⟨parts', hparts', hblocks⟩ := exists_of_bind_eq_ok hblocks
    cases hparts.symm.trans hparts'
    obtain ⟨entries, hentries, -⟩ := exists_of_bind_eq_ok hblocks
    rw [mapM_parts hitems] at hentries
    -- the first label is a key
    have hlabels : labels = (path ++ [Key.text last]).map Key.toJson := hindexed.labels_eq
    obtain ⟨key, rest, hpath⟩ := List.exists_cons_of_ne_nil
      (List.append_ne_nil_of_right_ne_nil path (List.cons_ne_nil (Key.text last) []))
    rw [hlabels, hpath, List.map_cons, List.mapM_cons] at hentries
    obtain ⟨first, hfirst, -⟩ := exists_of_bind_eq_ok hentries
    exact rootEntryOfJson_key_ne_ok key first hfirst

end CompiledTemplate

/-! ## What is in the folder of the cache -/

/-- Whether a file is one of the template of a source, or the draft of one. -/
structure IsArtifact (sources : Set (List Char)) (name : String) (content : List UInt8)
    (code : List Char) (t : CompiledTemplate) (part : ArtifactPart) (source : Path)
    (isDraft : Bool) : Prop where
  hasOwnExtension : source.HasOwnExtension
  code_mem : code ∈ sources
  compiled : CompiledTemplate.ofSource code = .ok t
  name_eq : name = part.fileName source (Engine.hashOf code) isDraft
  content_eq : content = encodeUtf8 (part.toJson t).spacedText

/-- The paths of the three files of a template. -/
theorem artifactPaths_eq (folder source : Path) (hash : String) :
    ArtifactPaths.of folder source hash
      = ⟨folder.child (ArtifactPart.tree.fileName source hash false),
          folder.child (ArtifactPart.index.fileName source hash false),
          folder.child (ArtifactPart.tags.fileName source hash false)⟩ := by
  have htree : String.ofList (dotted ArtifactPart.tree.extensions) = "" := rfl
  have hindex : String.ofList (dotted ArtifactPart.index.extensions) = ".idx" := by decide
  have htags : String.ofList (dotted ArtifactPart.tags.extensions) = ".tags" := by decide
  simp only [ArtifactPaths.of, ArtifactPart.fileName, htree, hindex, htags, Bool.false_eq_true,
    if_false, String.append_empty]

theorem fileName_draft (part : ArtifactPart) (source : Path) (hash : String) :
    part.fileName source hash false ++ ".tmp" = part.fileName source hash true := by
  simp only [ArtifactPart.fileName, Bool.false_eq_true, if_false, if_true, String.append_empty]

theorem fileName_ne_up (part : ArtifactPart) (source : Path) (hash : String) (isDraft : Bool) :
    part.fileName source hash isDraft ≠ ".." := by
  rw [ArtifactPart.fileName, String.append_assoc]
  exact append_ne_up (underscore_mem_artifactName source hash) _

namespace Cache

open Directory

/-- Whether all files in the folder of the cache are those of templates of some sources. -/
def IsSound (sources : Set (List Char)) (folder : Path) (d : Directory) : Prop :=
  d.AllFiles fun names content => ∀ place name, folder.place? = some place →
    names = place ++ [name] → ∃ code t part source isDraft,
      IsArtifact sources name content code t part source isDraft

variable {sources : Set (List Char)} {folder : Path} {d d' : Directory}

/-! ## Storing -/

/-- A file that has just been written is read as it was written. -/
theorem eq_of_file?_write? {name : String} (hname : name ≠ "..") {content content' : List UInt8}
    {time : Int} (h : d.write? (folder.child name) content = some d')
    (hfile : d'.file? (folder.child name) = some (content', time)) : content' = content := by
  obtain ⟨written, hwrite, rfl⟩ := Option.map_eq_some_iff.1 h
  obtain ⟨place, hplace, hfolder, -, hfound, hagree⟩ := exists_of_writeAt? hname hwrite
  have hticked : AgreeBeside place [name] d { written with clock := written.clock + tick } :=
    ⟨hagree.folders, hagree.others⟩
  have hread := (file?_child hname ((names?_congr hticked.folders folder).trans hplace)
    ((hticked.folders place).trans hfolder)).1 hfile
  cases hfound.symm.trans hread
  rfl

section
variable {source : Path} {code : List Char} {t : CompiledTemplate}

/-- A file of a template, or its draft, may be in the folder of the cache. -/
theorem IsSound.artifact (hsource : source.HasOwnExtension) (hcode : code ∈ sources)
    (ht : CompiledTemplate.ofSource code = .ok t) (part : ArtifactPart) (isDraft : Bool)
    {names : List String}
    (hnames : (folder.child (part.fileName source (Engine.hashOf code) isDraft)).place?
      = some names) (place : List String) (name : String) (hplace : folder.place? = some place)
    (hname : names = place ++ [name]) :
    ∃ code' t' part' source' isDraft', IsArtifact sources name
      (encodeUtf8 (part.toJson t).spacedText) code' t' part' source' isDraft' := by
  have hne := fileName_ne_up part source (Engine.hashOf code) isDraft
  cases (Path.place?_child hne hplace).symm.trans hnames
  obtain ⟨rfl, -⟩ := List.cons.inj (List.append_cancel_left hname)
  exact ⟨code, t, part, source, isDraft, hsource, hcode, ht, rfl, rfl⟩

/-- Storing a part leaves nothing else in the folder of the cache, even if it fails. -/
theorem IsSound.storeJson (hd : IsSound sources folder d) (hsource : source.HasOwnExtension)
    (hcode : code ∈ sources) (ht : CompiledTemplate.ofSource code = .ok t) (part : ArtifactPart) :
    IsSound sources folder (Cache.storeJson d
      (folder.child (part.fileName source (Engine.hashOf code) false)) (part.toJson t)).2 := by
  have hdraftName := fileName_ne_up part source (Engine.hashOf code) true
  unfold Cache.storeJson
  rw [extended_child, fileName_draft]
  dsimp only
  split
  · exact hd
  · rename_i written hwritten
    have hwrittenSound : IsSound sources folder written :=
      hd.write? hwritten fun names hnames => artifact hsource hcode ht part true hnames
    split
    · exact hwrittenSound
    · rename_i moved hmoved
      refine hwrittenSound.moveFile? hmoved fun content time names hread hnames => ?_
      rw [eq_of_file?_write? hdraftName hwritten hread]
      exact artifact hsource hcode ht part false hnames

theorem IsSound.store (hd : IsSound sources folder d) (hsource : source.HasOwnExtension)
    (hcode : code ∈ sources) (ht : CompiledTemplate.ofSource code = .ok t) :
    IsSound sources folder
      (Cache.store d folder (ArtifactPaths.of folder source (Engine.hashOf code)) t).2 := by
  -- the files are stored one after the other, until one fails
  have hall (parts : List ArtifactPart) {d : Directory} (hd : IsSound sources folder d) :
      IsSound sources folder (storeAll d (parts.map fun part =>
        (folder.child (part.fileName source (Engine.hashOf code) false), part.toJson t))).2 := by
    induction parts generalizing d with
    | nil => exact hd
    | cons part rest ih =>
      have hstored := hd.storeJson hsource hcode ht part
      rw [List.map_cons, storeAll]
      split
      · rename_i stored heq
        rw [heq] at hstored
        exact ih hstored
      · rename_i stored heq
        rw [heq] at hstored
        exact hstored
  rw [artifactPaths_eq]
  unfold Cache.store
  split
  · exact hd
  · rename_i made hmade
    exact hall [.tree, .index, .tags] (AllFiles.makeFolder? hd hmade)

end

/-! ## Loading -/

section
variable {source : Path} {code : List Char} {t : CompiledTemplate}
  (hd : IsSound sources folder d) (hdigest : Set.InjOn Engine.hashOf sources)
  (hjson : ∀ code ∈ sources, ∀ t, CompiledTemplate.ofSource code = .ok t → t.IsKept)
  (hsource : source.HasOwnExtension) (hcode : code ∈ sources)
include hd hdigest hjson hsource hcode

/-- What is read under a name that belongs to a source has been stored of its template, and it is
    the tag names where these are looked for. -/
theorem exists_of_readJson (part : ArtifactPart) {j : Json}
    (h : readJson d (folder.child (part.fileName source (Engine.hashOf code) false)) = .ok j) :
    ∃ t other, CompiledTemplate.ofSource code = .ok t ∧ j = ArtifactPart.toJson t other
      ∧ (part = .tags ↔ other = .tags) := by
  have hread := h
  have hne := fileName_ne_up part source (Engine.hashOf code) false
  unfold readJson at h
  split at h
  · exact nomatch h
  rename_i content time hfile
  obtain ⟨names, hnames, hartifact⟩ := AllFiles.of_file? hd hfile
  obtain ⟨place, hplace, rfl⟩ := Path.exists_of_place?_child hne hnames
  obtain ⟨code', t, other, source', isDraft, ha⟩ := hartifact place _ hplace rfl
  -- the name tells the digest, and so the source
  obtain ⟨hhash, htags⟩ := eq_of_fileName_eq hsource ha.hasOwnExtension ha.name_eq
  cases hdigest hcode ha.code_mem hhash
  obtain ⟨htreeNumbers, hindexNumbers, hdepth⟩ := hjson code hcode t ha.compiled
  have hcompiled := eq_ok_of_withinNesting ha.compiled
  have hparse : Json.parse (other.toJson t).spacedText.toList = .ok (other.toJson t) := by
    cases other with
    | tree => exact CompiledTemplate.parse_treeToJson hcompiled htreeNumbers hdepth
    | index => exact CompiledTemplate.parse_indexToJson hcompiled hindexNumbers
    | tags => exact CompiledTemplate.parse_tagsToJson hcompiled
  have hholds : Holds d (folder.child (part.fileName source (Engine.hashOf code) false))
      (other.toJson t) :=
    ⟨time, by rw [hfile, ha.content_eq]⟩
  cases (readJson_of_holds hholds hparse).symm.trans hread
  exact ⟨t, other, ha.compiled, rfl, htags⟩

/-- What is loaded for a source is what it compiles to. -/
theorem ofSource_of_load {time : Int}
    (h : load d (ArtifactPaths.of folder source (Engine.hashOf code)) time = .ok (some t)) :
    CompiledTemplate.ofSource code = .ok t := by
  have hread : readTemplate d (ArtifactPaths.of folder source (Engine.hashOf code)) = .ok t := by
    unfold load at h
    split at h
    · exact nomatch h
    · split at h
      · split at h
        · rename_i heq
          cases h
          exact heq
        · exact nomatch h
        · exact nomatch h
      · exact nomatch h
  rw [artifactPaths_eq] at hread
  obtain ⟨treeJson, htree, hread⟩ := exists_of_bind_eq_ok hread
  obtain ⟨indexJson, hindex, hread⟩ := exists_of_bind_eq_ok hread
  obtain ⟨tagsJson, htags, hread⟩ := exists_of_bind_eq_ok hread
  obtain ⟨c, first, hc, rfl, hfirst⟩ :=
    exists_of_readJson hd hdigest hjson hsource hcode .tree htree
  obtain ⟨c₂, second, hc₂, rfl, hsecond⟩ :=
    exists_of_readJson hd hdigest hjson hsource hcode .index hindex
  obtain ⟨c₃, third, hc₃, rfl, hthird⟩ :=
    exists_of_readJson hd hdigest hjson hsource hcode .tags htags
  cases hc.symm.trans hc₂
  cases hc.symm.trans hc₃
  cases hthird.1 rfl
  have hcompiled := eq_ok_of_withinNesting hc
  have hall := eq_ok_of_mapError_eq_ok hread
  obtain ⟨blocks, hblocks, hrest⟩ := exists_of_bind_eq_ok hall
  obtain ⟨index, hindex, -⟩ := exists_of_bind_eq_ok hrest
  -- the tree and the index cannot be read from each other
  cases first with
  | tags => exact nomatch hfirst.2 rfl
  | index => exact absurd hblocks (CompiledTemplate.treeOfJson_indexToJson_ne_ok hcompiled blocks)
  | tree =>
    cases second with
    | tags => exact nomatch hsecond.2 rfl
    | tree => exact absurd hindex (CompiledTemplate.indexOfJson_treeToJson_ne_ok c index)
    | index =>
      cases (CompiledTemplate.ofJson_toJson hcompiled).symm.trans hall
      exact hc

end

end Cache

end BlockTemplate
