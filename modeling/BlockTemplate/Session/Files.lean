import BlockTemplate.Cache.Basic
import BlockTemplate.Session.Open

/-!
# Templates in files

A template in a file is opened from the cache, if that is on and has it, and else is compiled and
put into the cache.
-/

namespace BlockTemplate

/-- The text files of a directory as sources. -/
def Directory.sources (d : Directory) : Sources := fun p => do
  match ← d.seek p with
  | none => return none
  | some (content, _) => return some (← (decodeMarkedFile content).mapError .encoding)

/-- A session with a fresh template; `compiledNow` tells that it did not come from the cache. -/
structure Opening where
  session : Session
  compiledNow : Bool

/-- Compile a prepared text and put the template into the cache, if that is on. -/
def compileAndStore (config : Config) (paths : ArtifactPaths) (code : List Char) (d : Directory) :
    Except OpenError CompiledTemplate × Directory :=
  match CompiledTemplate.ofSource code with
  | .error e => (.error e.toOpenError, d)
  | .ok compiled =>
    if config.cache then
      match Cache.store d config.templatesDir paths compiled with
      | (true, d) => (.ok compiled, d)
      | (false, d) => (.error (.unwritableCache config.templatesDir), d)
    else (.ok compiled, d)

/-- Open the template in a file. What has been written to the cache stays when that fails. -/
def openFile (config : Config) (callbacks : Registry) (p : Path) (d : Directory) :
    Except OpenError Opening × Directory :=
  let engine : Engine := ⟨config, callbacks, d.sources, Path.current⟩
  match d.seek p with
  | .error e => (.error (.file e), d)
  | .ok none => (.error (.missingFile p), d)
  | .ok (some (content, time)) =>
    match (decodeMarkedFile content).mapError (OpenError.file ∘ .encoding) >>= engine.prepare with
    | .error e => (.error e, d)
    | .ok code =>
      let hash := Engine.hashOf code
      let paths := ArtifactPaths.of config.templatesDir p hash
      let opening (compiledNow : Bool) (t : CompiledTemplate) : Opening :=
        ⟨.start p.name config callbacks hash t, compiledNow⟩
      match if config.cache then Cache.load d paths time else .ok none with
      | .error e => (.error (.file e), d)
      | .ok (some cached) => (.ok (opening false cached), d)
      -- only templates that have to be compiled are written to the cache
      | .ok none =>
        let (outcome, d) := compileAndStore config paths code d
        (outcome.map (opening true), d)

end BlockTemplate
