import BlockTemplate.Callback.Default
import BlockTemplate.Proofs.Cache.Soundness
import BlockTemplate.Session.Files

/-!
# Transparency of the cache

Whatever is opened, written, touched, deleted and purged, the cache stays sound. So opening a source
with the cache gives the same template as opening it without, unless a source is named like a file
that the cache keeps beside another one.

## Key results

- `isSound_perform`: what every step keeps
- `compiled_of_openFile`: opening with the cache and without it gives the same template
- `compiled_ne_of_openFile`: but not for a source that is named like the tag names of another one
-/

namespace BlockTemplate

open Cache

/-! ## Opening a file -/

/-- The text that opening a file compiles. -/
def preparedFile (config : Config) (callbacks : Registry) (p : Path) (d : Directory) :
    Except OpenError (List Char) :=
  match d.seek p with
  | .error e => .error (.file e)
  | .ok none => .error (.missingFile p)
  | .ok (some (content, _)) =>
    (decodeMarkedFile content).mapError (OpenError.file ∘ .encoding)
      >>= Engine.prepare ⟨config, callbacks, d.sources, Path.current⟩

/-- Opening the file of a source goes on with the text that it compiles, and looks into the cache
    before it does so. -/
def openPrepared (config : Config) (callbacks : Registry) (p : Path) (code : List Char)
    (hash : String) (time : Int) (d : Directory) : Except OpenError Opening × Directory :=
  let paths := ArtifactPaths.of config.templatesDir p hash
  let opening (compiledNow : Bool) (t : CompiledTemplate) : Opening :=
    ⟨.start p.name config callbacks hash t, compiledNow⟩
  match if config.cache then load d paths time else .ok none with
  | .error e => (.error (.file e), d)
  | .ok (some cached) => (.ok (opening false cached), d)
  | .ok none =>
    let (outcome, d) := compileAndStore config paths code d
    (outcome.map (opening true), d)

section
variable {config : Config} {callbacks : Registry} {p : Path} {d : Directory} {code : List Char}

theorem exists_seek_of_preparedFile (h : preparedFile config callbacks p d = .ok code) :
    ∃ content time, d.seek p = .ok (some (content, time)) := by
  unfold preparedFile at h
  split at h
  · exact nomatch h
  · exact nomatch h
  · rename_i content time heq
    exact ⟨content, time, heq⟩

theorem openFile_of_error {e : OpenError} (h : preparedFile config callbacks p d = .error e) :
    openFile config callbacks p d = (.error e, d) := by
  unfold preparedFile at h
  unfold openFile
  cases hseek : d.seek p with
  | error cause =>
    rw [hseek] at h
    cases h
    rfl
  | ok found =>
    rw [hseek] at h
    cases found with
    | none =>
      cases h
      rfl
    | some file =>
      have hcode : (decodeMarkedFile file.1).mapError (OpenError.file ∘ .encoding)
          >>= Engine.prepare ⟨config, callbacks, d.sources, Path.current⟩ = .error e := h
      simp only [hcode]

theorem openFile_of_seek {content : List UInt8} {time : Int}
    (hseek : d.seek p = .ok (some (content, time)))
    (h : preparedFile config callbacks p d = .ok code) (cache : Bool) :
    openFile { config with cache } callbacks p d
      = openPrepared { config with cache } callbacks p code (Engine.hashOf code) time d := by
  -- whether the cache is on plays no part in the text
  have hcode : (decodeMarkedFile content).mapError (OpenError.file ∘ .encoding)
      >>= Engine.prepare ⟨{ config with cache }, callbacks, d.sources, Path.current⟩
        = .ok code := by
    unfold preparedFile at h
    rw [hseek] at h
    exact h
  unfold openFile
  rw [hseek]
  simp only [hcode]
  rfl

theorem ofSource_of_compileAndStore {paths : ArtifactPaths} {t : CompiledTemplate}
    (h : (compileAndStore config paths code d).1 = .ok t) :
    CompiledTemplate.ofSource code = .ok t := by
  unfold compileAndStore at h
  split at h
  · exact nomatch h
  · rename_i compiled heq
    split at h
    · split at h
      · cases h
        exact heq
      · exact nomatch h
    · cases h
      exact heq

/-- Compiling a text writes nothing but the template that it compiles to. -/
theorem compileAndStore_snd (config : Config) (paths : ArtifactPaths) (code : List Char)
    (d : Directory) :
    (compileAndStore config paths code d).2 = d
      ∨ ∃ t, CompiledTemplate.ofSource code = .ok t
        ∧ (compileAndStore config paths code d).2 = (store d config.templatesDir paths t).2 := by
  unfold compileAndStore
  split
  · exact .inl rfl
  · rename_i compiled heq
    split
    · refine .inr ⟨compiled, heq, ?_⟩
      split
      · rename_i hstore
        rw [hstore]
      · rename_i hstore
        rw [hstore]
    · exact .inl rfl

/-- The template of a file that is opened is loaded, or compiled from the text of the file. -/
theorem compiled_of_openPrepared {hash : String} {time : Int} {opening : Opening}
    (h : (openPrepared config callbacks p code hash time d).1 = .ok opening) :
    CompiledTemplate.ofSource code = .ok opening.session.compiled
      ∨ load d (.of config.templatesDir p hash) time
        = .ok (some opening.session.compiled) := by
  unfold openPrepared at h
  dsimp only at h
  split at h
  · exact nomatch h
  · rename_i cached hload
    cases h
    split at hload
    · exact .inr hload
    · exact nomatch hload
  · obtain ⟨t, ht, rfl⟩ := exists_of_map_eq_ok h
    exact .inl (ofSource_of_compileAndStore ht)

/-- Opening a file writes nothing but the template that it compiles to. -/
theorem openPrepared_snd (config : Config) (callbacks : Registry) (p : Path) (code : List Char)
    (hash : String) (time : Int) (d : Directory) :
    (openPrepared config callbacks p code hash time d).2 = d
      ∨ ∃ t, CompiledTemplate.ofSource code = .ok t
        ∧ (openPrepared config callbacks p code hash time d).2
          = (store d config.templatesDir (.of config.templatesDir p hash) t).2 := by
  unfold openPrepared
  dsimp only
  split
  · exact .inl rfl
  · exact .inl rfl
  · exact compileAndStore_snd ..

/-- Without the cache, the template is compiled from the text of the file. -/
theorem exists_openPrepared_of_uncached (hcache : config.cache = false) {t : CompiledTemplate}
    (ht : CompiledTemplate.ofSource code = .ok t) (callbacks : Registry) (p : Path)
    (hash : String) (time : Int) (d : Directory) :
    ∃ opening, (openPrepared config callbacks p code hash time d).1 = .ok opening
      ∧ opening.session.compiled = t := by
  simp only [openPrepared, compileAndStore, hcache, ht, Bool.false_eq_true, if_false]
  exact ⟨_, rfl, rfl⟩

theorem openPrepared_of_load {time : Int} {hash : String} {t : CompiledTemplate}
    (hcache : config.cache = true)
    (hload : load d (.of config.templatesDir p hash) time = .ok (some t)) :
    openPrepared config callbacks p code hash time d
      = (.ok ⟨.start p.name config callbacks hash t, false⟩, d) := by
  simp only [openPrepared, hcache, if_true, hload]

theorem openPrepared_of_store {time : Int} {hash : String} {t : CompiledTemplate}
    (hcache : config.cache = true)
    (hload : load d (.of config.templatesDir p hash) time = .ok none)
    (ht : CompiledTemplate.ofSource code = .ok t)
    {stored : Directory}
    (hstore : store d config.templatesDir (.of config.templatesDir p hash) t = (true, stored)) :
    openPrepared config callbacks p code hash time d
      = (.ok ⟨.start p.name config callbacks hash t, true⟩, stored) := by
  simp only [openPrepared, compileAndStore, hcache, if_true, hload, ht, hstore]
  rfl

end

/-! ## Steps -/

/-- What happens to sources and to the cache. -/
inductive CacheStep where
  | opened (config : Config) (callbacks : Registry) (p : Path)
  | written (p : Path) (content : List UInt8) (time : Int)
  | touched (p : Path) (time : Int)
  | deleted (p : Path)
  | purged

/-- The directory after a step. -/
def Directory.perform (folder : Path) (d : Directory) : CacheStep → Directory
  | .opened config callbacks p => (openFile config callbacks p d).2
  | .written p content time =>
    let made := (d.makeFolder? p.parent).getD d
    (made.writeAt? p content time).getD made
  | .touched p time =>
    ((d.file? p).bind fun (content, _) => d.writeAt? p content time).getD d
  | .deleted p => (d.remove? p).getD d
  | .purged => (purge d folder).2

/-- The directory after some steps. -/
def Directory.performAll (folder : Path) (d : Directory) (steps : List CacheStep) : Directory :=
  steps.foldl (Directory.perform folder) d

theorem Directory.perform_opened (folder : Path) (d : Directory) (config : Config)
    (callbacks : Registry) (p : Path) :
    d.perform folder (.opened config callbacks p) = (openFile config callbacks p d).2 := rfl

theorem Directory.performAll_cons (folder : Path) (d : Directory) (step : CacheStep)
    (rest : List CacheStep) :
    d.performAll folder (step :: rest) = (d.perform folder step).performAll folder rest := rfl

/-- Whether a step may be taken: templates are opened with the cache in the given folder, their
    extensions are their own, the texts that they compile are among the sources, and nothing else
    writes into the folder. -/
def CacheStep.IsAllowed (sources : Set (List Char)) (folder : Path) (d : Directory) :
    CacheStep → Prop
  | .opened config callbacks p => config.cache = true ∧ config.templatesDir = folder
    ∧ p.HasOwnExtension ∧ ∀ code, preparedFile config callbacks p d = .ok code → code ∈ sources
  | .written p _ _ => ¬folder.IsIn p
  | _ => True

/-- Whether steps may be taken one after the other. -/
def AreAllowed (sources : Set (List Char)) (folder : Path) : Directory → List CacheStep → Prop
  | _, [] => True
  | d, step :: rest => step.IsAllowed sources folder d
    ∧ AreAllowed sources folder (d.perform folder step) rest

section
variable {sources : Set (List Char)} {folder : Path} {d : Directory}

/-- A cache without files is sound. -/
theorem isSound_of_empty
    (h : ∀ name, ∀ place ∈ folder.place?, ∀ content time,
      d.root.find? (place ++ [name]) ≠ some (.file content time)) : IsSound sources folder d := by
  rintro _ content time hfile place name hplace rfl
  exact absurd hfile (h name place hplace content time)

/-- What is stored for a template is compiled from its source. -/
theorem Cache.IsSound.opened {config : Config} {callbacks : Registry} {p : Path}
    (hd : IsSound sources config.templatesDir d) (hp : p.HasOwnExtension)
    (hsources : ∀ code, preparedFile config callbacks p d = .ok code → code ∈ sources) :
    IsSound sources config.templatesDir (openFile config callbacks p d).2 := by
  cases hcode : preparedFile config callbacks p d with
  | error e =>
    rw [openFile_of_error hcode]
    exact hd
  | ok code =>
    obtain ⟨content, time, hseek⟩ := exists_seek_of_preparedFile hcode
    rw [openFile_of_seek hseek hcode config.cache]
    obtain hsame | ⟨t, ht, hstore⟩ := openPrepared_snd config callbacks p code _ time d
    · rw [hsame]
      exact hd
    · rw [hstore]
      exact hd.store hp (hsources code hcode) ht

/-- What is written elsewhere is none of the files in the folder. -/
theorem Cache.IsSound.written (hd : IsSound sources folder d) {p : Path} (hp : ¬folder.IsIn p)
    (content : List UInt8) (time : Int) :
    IsSound sources folder (d.perform folder (.written p content time)) := by
  rw [Directory.perform]
  have hmade : IsSound sources folder ((d.makeFolder? p.parent).getD d) := by
    cases hmake : d.makeFolder? p.parent with
    | none => exact hd
    | some made => exact Directory.AllFiles.makeFolder? hd hmake
  cases hwrite : ((d.makeFolder? p.parent).getD d).writeAt? p content time with
  | none => exact hmade
  | some changed =>
    refine Directory.AllFiles.writeAt? hmade hwrite ?_
    rintro _ hplaces place name hplace rfl
    exact absurd ⟨place, name, hplace, hplaces⟩ hp

/-- A file that is touched keeps its content. -/
theorem Cache.IsSound.touched (hd : IsSound sources folder d) (p : Path) (time : Int) :
    IsSound sources folder (d.perform folder (.touched p time)) := by
  rw [Directory.perform]
  cases htouch : (d.file? p).bind fun (content, _) => d.writeAt? p content time with
  | none => exact hd
  | some changed =>
    obtain ⟨⟨content, old⟩, hfile, hwrite⟩ := Option.bind_eq_some_iff.1 htouch
    refine Directory.AllFiles.writeAt? hd hwrite fun names hnames => ?_
    obtain ⟨names', hnames', hcontent⟩ := Directory.AllFiles.of_file? hd hfile
    cases hnames.symm.trans hnames'
    exact hcontent

theorem Cache.IsSound.purged (hd : IsSound sources folder d) :
    IsSound sources folder (d.perform folder .purged) := by
  rw [Directory.perform, purge]
  split
  · exact hd
  · exact hd
  · split
    · rename_i removed hremove
      exact Directory.AllFiles.remove? hd hremove
    · exact hd

/-- A step keeps the cache sound. -/
theorem isSound_perform (hd : IsSound sources folder d) {step : CacheStep}
    (hstep : step.IsAllowed sources folder d) : IsSound sources folder (d.perform folder step) := by
  cases step with
  | opened config callbacks p =>
    obtain ⟨-, rfl, hp, hsources⟩ := hstep
    exact hd.opened hp hsources
  | written p content time => exact hd.written hstep content time
  | touched p time => exact hd.touched p time
  | deleted p =>
    rw [Directory.perform]
    cases hremove : d.remove? p with
    | none => exact hd
    | some changed => exact Directory.AllFiles.remove? hd hremove
  | purged => exact hd.purged

theorem isSound_performAll (hd : IsSound sources folder d) {steps : List CacheStep}
    (hsteps : AreAllowed sources folder d steps) :
    IsSound sources folder (d.performAll folder steps) := by
  induction steps generalizing d with
  | nil => exact hd
  | cons step rest ih => exact ih (isSound_perform hd hsteps.1) hsteps.2

theorem areAllowed_concat {steps : List CacheStep} {step : CacheStep}
    (h : AreAllowed sources folder d (steps ++ [step])) :
    AreAllowed sources folder d steps
      ∧ step.IsAllowed sources folder (d.performAll folder steps) := by
  induction steps generalizing d with
  | nil => exact ⟨trivial, h.1⟩
  | cons first rest ih =>
    obtain ⟨hrest, hlast⟩ := ih h.2
    exact ⟨⟨h.1, hrest⟩, hlast⟩

end

/-- The cache is transparent. From an empty cache on, whatever is opened, written, touched, deleted
    and purged, each template that is opened with the cache has the blocks, the index and the tags
    that it has when it is opened without. Digests have to tell the sources apart, JSON has to keep
    what is stored of their templates, and the extensions of the templates must not be mistaken for
    the ones that the cache puts behind names. -/
theorem compiled_of_openFile {sources : Set (List Char)} {folder : Path} {d : Directory}
    {steps : List CacheStep} {config : Config} {callbacks : Registry} {p : Path}
    (hempty : ∀ name, ∀ place ∈ folder.place?, ∀ content time,
      d.root.find? (place ++ [name]) ≠ some (.file content time))
    (hdigest : Set.InjOn Engine.hashOf sources)
    (hjson : ∀ code ∈ sources, ∀ t, CompiledTemplate.ofSource code = .ok t → t.IsKept)
    (hsteps : AreAllowed sources folder d (steps ++ [.opened config callbacks p]))
    {opening : Opening}
    (h : (openFile config callbacks p (d.performAll folder steps)).1 = .ok opening) :
    ∃ plain, (openFile { config with cache := false } callbacks p (d.performAll folder steps)).1
        = .ok plain
      ∧ opening.session.compiled = plain.session.compiled := by
  obtain ⟨hbefore, -, rfl, hp, hsources⟩ := areAllowed_concat hsteps
  have hsound := isSound_performAll (isSound_of_empty hempty) hbefore
  -- of the steps before, only that the cache is sound matters
  generalize d.performAll config.templatesDir steps = d at h hsound hsources
  cases hcode : preparedFile config callbacks p d with
  | error e =>
    rw [openFile_of_error hcode] at h
    exact nomatch h
  | ok code =>
    obtain ⟨content, time, hseek⟩ := exists_seek_of_preparedFile hcode
    rw [openFile_of_seek hseek hcode config.cache] at h
    -- the template is compiled now or loaded, and what is loaded has been compiled before
    have hcompiled : CompiledTemplate.ofSource code = .ok opening.session.compiled := by
      obtain hcompiled | hload := compiled_of_openPrepared h
      · exact hcompiled
      · exact ofSource_of_load hsound hdigest hjson hp (hsources code hcode) hload
    have huncached : { config with cache := false }.cache = false := rfl
    obtain ⟨plain, hplain, hsame⟩ :=
      exists_openPrepared_of_uncached huncached hcompiled callbacks p _ time d
    rw [openFile_of_seek hseek hcode false]
    exact ⟨plain, hplain, hsame.symm⟩

/-! ## A template named like the tag names of another one -/

/-- The text of a template. -/
def pageSource : List Char := "<!-- BEGIN: MAIN -->{X}<!-- END: MAIN -->".toList

/-- Its digest. -/
def pageHash : String := "294d95cf2c9898c3f08c8dc70d0a5fbf5ec0ad86"

/-- What it compiles to. -/
def pageTemplate : CompiledTemplate where
  blocks := [(.text "MAIN", .block (.text "MAIN")
    [(.int 0, .data [.tag (.mk (.text "X") (.text "X") [] [])])])]
  index := [("MAIN", [.text "MAIN"])]
  tags := [.text "X"]

/-- A file with the text. -/
def pagePath : Path := ⟨.relative, ["page"]⟩

/-- Another file with the text, named like the tag names that are kept for the first one. -/
def pageTagsPath : Path := ⟨.relative, ["page.tags"]⟩

/-- A configuration with a cache. -/
def cachingConfig : Config := { cache := true, cacheDir := ⟨.relative, ["cache"]⟩ }

/-- The same configuration without the cache. -/
def uncachedConfig : Config := { cachingConfig with cache := false }

/-- A file with a text. -/
def fileOf (text : String) (time : Int) : Entry := .file (encodeUtf8 text) time

/-- The two files. -/
def pageFiles : Folder :=
  let file := fileOf (String.ofList pageSource) 0
  [("page", file), ("page.tags", file)]

/-- The two files, and no cache yet. -/
def pageDirectory : Directory := ⟨pageFiles, 10⟩

/-- The files with the first one in the cache. -/
def firstStored : Directory where
  root := pageFiles ++ [("cache", .folder [("templates", .folder
    [("._page_294d95cf2c9898c3f08c8dc70d0a5fbf5ec0ad86",
        fileOf pageTemplate.treeToJson.spacedText 10),
      ("._page_294d95cf2c9898c3f08c8dc70d0a5fbf5ec0ad86.idx",
        fileOf pageTemplate.indexToJson.spacedText 1000010),
      ("._page_294d95cf2c9898c3f08c8dc70d0a5fbf5ec0ad86.tags",
        fileOf pageTemplate.tagsToJson.spacedText 2000010)])])]
  clock := 3000010

/-- The files with both of them in the cache. The tree of the second one has taken the place of the
    tag names of the first one. -/
def bothStored : Directory where
  root := pageFiles ++ [("cache", .folder [("templates", .folder
    [("._page_294d95cf2c9898c3f08c8dc70d0a5fbf5ec0ad86",
        fileOf pageTemplate.treeToJson.spacedText 10),
      ("._page_294d95cf2c9898c3f08c8dc70d0a5fbf5ec0ad86.idx",
        fileOf pageTemplate.indexToJson.spacedText 1000010),
      ("._page_294d95cf2c9898c3f08c8dc70d0a5fbf5ec0ad86.tags",
        fileOf pageTemplate.treeToJson.spacedText 3000010),
      ("._page_294d95cf2c9898c3f08c8dc70d0a5fbf5ec0ad86.tags.idx",
        fileOf pageTemplate.indexToJson.spacedText 4000010),
      ("._page_294d95cf2c9898c3f08c8dc70d0a5fbf5ec0ad86.tags.tags",
        fileOf pageTemplate.tagsToJson.spacedText 5000010)])])]
  clock := 6000010

theorem hashOf_pageSource : Engine.hashOf pageSource = pageHash := by decide +kernel

set_option maxRecDepth 4000 in
theorem ofSource_pageSource : CompiledTemplate.ofSource pageSource = .ok pageTemplate := by cbv

/-- Whether the text is in a file. -/
def HoldsPage (d : Directory) (p : Path) : Prop :=
  d.seek p = .ok (some (encodeUtf8 (String.ofList pageSource), 0))

section
variable {p : Path} {d : Directory}

theorem preparedFile_page (h : HoldsPage d p) :
    preparedFile cachingConfig .default p d = .ok pageSource := by
  unfold preparedFile
  rw [h]
  cbv

/-- The first time, a file with the text is compiled and stored. -/
theorem openFile_page_of_store {stored : Directory} (h : HoldsPage d p)
    (hload : load d (.of cachingConfig.templatesDir p pageHash) 0 = .ok none)
    (hstore : store d cachingConfig.templatesDir (.of cachingConfig.templatesDir p pageHash)
      pageTemplate = (true, stored)) :
    openFile cachingConfig .default p d
      = (.ok ⟨.start p.name cachingConfig .default pageHash pageTemplate, true⟩, stored) := by
  rw [openFile_of_seek h (preparedFile_page h) cachingConfig.cache, hashOf_pageSource]
  exact openPrepared_of_store rfl hload ofSource_pageSource hstore

/-- Later on, it is loaded. -/
theorem openFile_page_of_load {t : CompiledTemplate} (h : HoldsPage d p)
    (hload : load d (.of cachingConfig.templatesDir p pageHash) 0 = .ok (some t)) :
    openFile cachingConfig .default p d
      = (.ok ⟨.start p.name cachingConfig .default pageHash t, false⟩, d) := by
  rw [openFile_of_seek h (preparedFile_page h) cachingConfig.cache, hashOf_pageSource]
  exact openPrepared_of_load rfl hload

/-- Without the cache, it is compiled every time. -/
theorem exists_openFile_page_of_uncached (h : HoldsPage d p) :
    ∃ opening, (openFile uncachedConfig .default p d).1 = .ok opening
      ∧ opening.session.compiled = pageTemplate := by
  have hopen := openFile_of_seek h (preparedFile_page h) false
  have huncached : uncachedConfig.cache = false := rfl
  obtain ⟨opening, hopening, hcompiled⟩ := exists_openPrepared_of_uncached huncached
    ofSource_pageSource .default p (Engine.hashOf pageSource) 0 d
  exact ⟨opening, (congrArg Prod.fst hopen).trans hopening, hcompiled⟩

end

theorem perform_first :
    pageDirectory.perform cachingConfig.templatesDir (.opened cachingConfig .default pagePath)
      = firstStored := by
  have hpage : HoldsPage pageDirectory pagePath := by rfl
  have hload : load pageDirectory (.of cachingConfig.templatesDir pagePath pageHash) 0
      = .ok none := by rfl
  have hstore : store pageDirectory cachingConfig.templatesDir
      (.of cachingConfig.templatesDir pagePath pageHash) pageTemplate = (true, firstStored) := by
    rfl
  rw [Directory.perform_opened, openFile_page_of_store hpage hload hstore]

theorem perform_second :
    firstStored.perform cachingConfig.templatesDir (.opened cachingConfig .default pageTagsPath)
      = bothStored := by
  have hpage : HoldsPage firstStored pageTagsPath := by rfl
  have hload : load firstStored (.of cachingConfig.templatesDir pageTagsPath pageHash) 0
      = .ok none := by rfl
  have hstore : store firstStored cachingConfig.templatesDir
      (.of cachingConfig.templatesDir pageTagsPath pageHash) pageTemplate = (true, bothStored) := by
    rfl
  rw [Directory.perform_opened, openFile_page_of_store hpage hload hstore]

theorem isKept_pageTemplate : pageTemplate.IsKept where
  treeNumbers := by
    have hone : Json.ReadsBack (.int 1) := readsBack_digit (by decide)
    have hzero : Json.ReadsBack (.int 0) := readsBack_digit (by decide)
    simp only [pageTemplate, CompiledTemplate.treeToJson, childrenToJson, Node.toJson,
      Reference.toJson, callsToJson, Key.toJson, Chunk.toJson, List.map_cons, List.map_nil,
      Json.All, Json.AllItems, Json.AllMembers, Json.NumberReadsBack, and_true, true_and]
    exact ⟨hone, hzero⟩
  indexNumbers := ⟨trivial, ⟨trivial, trivial, trivial⟩, trivial⟩
  depth := by decide

theorem areAllowed_page :
    AreAllowed {pageSource} cachingConfig.templatesDir pageDirectory
      ([.opened cachingConfig .default pagePath] ++ [.opened cachingConfig .default pagePath]) := by
  have hown : pagePath.HasOwnExtension := by decide
  -- only the one text is ever compiled
  have hsource {d : Directory} (h : HoldsPage d pagePath) (code : List Char)
      (hcode : preparedFile cachingConfig .default pagePath d = .ok code) :
      code ∈ ({pageSource} : Set (List Char)) := by
    cases (preparedFile_page h).symm.trans hcode
    exact rfl
  have hbefore : HoldsPage pageDirectory pagePath := by rfl
  have hafter : HoldsPage firstStored pagePath := by rfl
  refine ⟨⟨rfl, rfl, hown, hsource hbefore⟩, ?_⟩
  rw [perform_first]
  exact ⟨⟨rfl, rfl, hown, hsource hafter⟩, trivial⟩

/-- The first of the files is opened twice, the second time from the cache. -/
theorem compiled_of_openFile_of_page :
    ∃ opening plain, (openFile cachingConfig .default pagePath firstStored).1 = .ok opening
      ∧ opening.compiledNow = false
      ∧ (openFile uncachedConfig .default pagePath firstStored).1 = .ok plain
      ∧ opening.session.compiled = plain.session.compiled := by
  -- the second time, the stored template is found
  have hload : (load firstStored (.of cachingConfig.templatesDir pagePath pageHash) 0).map
      Option.isSome = .ok true := by
    decide +kernel
  obtain ⟨found, hload, hsome⟩ := exists_of_map_eq_ok hload
  obtain ⟨t, rfl⟩ := Option.isSome_iff_exists.1 hsome
  have hpage : HoldsPage firstStored pagePath := by rfl
  have hopen := congrArg Prod.fst (openFile_page_of_load hpage hload)
  have hempty : ∀ name, ∀ place ∈ cachingConfig.templatesDir.place?, ∀ content time,
      pageDirectory.root.find? (place ++ [name]) ≠ some (.file content time) := by
    rintro name place ⟨⟩ content time
    exact nofun
  have hjson : ∀ code ∈ ({pageSource} : Set (List Char)), ∀ t,
      CompiledTemplate.ofSource code = .ok t → t.IsKept := by
    rintro code rfl t ht
    cases ofSource_pageSource.symm.trans ht
    exact isKept_pageTemplate
  have hall : pageDirectory.performAll cachingConfig.templatesDir
      [.opened cachingConfig .default pagePath] = firstStored := by
    rw [Directory.performAll_cons, perform_first]
    rfl
  rw [← hall] at hopen ⊢
  obtain ⟨plain, hplain, hsame⟩ :=
    compiled_of_openFile hempty (Set.injOn_singleton _ _) hjson areAllowed_page hopen
  exact ⟨_, plain, hopen, rfl, hplain, hsame⟩

/-- The template of a source that is named like the tag names of another one is stored in their
    place, so that the other template has the wrong tags when it is opened again. -/
theorem compiled_ne_of_openFile :
    ∃ opening plain,
      pageDirectory.performAll cachingConfig.templatesDir
        [.opened cachingConfig .default pagePath, .opened cachingConfig .default pageTagsPath]
        = bothStored
      ∧ (openFile cachingConfig .default pagePath bothStored).1 = .ok opening
      ∧ (openFile uncachedConfig .default pagePath bothStored).1 = .ok plain
      ∧ opening.session.compiled.tags = [.text "v", .text "blocks"]
      ∧ plain.session.compiled.tags = [.text "X"] := by
  have hload : (load bothStored (.of cachingConfig.templatesDir pagePath pageHash) 0).map
      (Option.map CompiledTemplate.tags) = .ok (some [.text "v", .text "blocks"]) := by
    decide +kernel
  obtain ⟨found, hload, htags⟩ := exists_of_map_eq_ok hload
  obtain ⟨t, rfl, hnames⟩ := Option.map_eq_some_iff.1 htags
  have hpage : HoldsPage bothStored pagePath := by rfl
  have hopen := congrArg Prod.fst (openFile_page_of_load hpage hload)
  obtain ⟨plain, hplain, hcompiled⟩ := exists_openFile_page_of_uncached hpage
  have hall : pageDirectory.performAll cachingConfig.templatesDir
      [.opened cachingConfig .default pagePath, .opened cachingConfig .default pageTagsPath]
      = bothStored := by
    rw [Directory.performAll_cons, perform_first, Directory.performAll_cons, perform_second]
    rfl
  refine ⟨_, plain, hall, hopen, hplain, hnames, ?_⟩
  rw [hcompiled]
  rfl

end BlockTemplate
