import BlockTemplate.Config.Basic
import BlockTemplate.Directory.Basic
import BlockTemplate.Json.Reader
import BlockTemplate.Stored.Template

/-!
# The cache of compiled templates

A compiled template is kept in three files beside each other, whose names hold the path of the
source and the digest of its text. They are used again if all three are there and readable, and the
source is not newer than the first of them.
-/

namespace BlockTemplate

/-- The files of a cached template. -/
structure ArtifactPaths where
  tree : Path
  index : Path
  tags : Path
deriving DecidableEq, Repr

/-- The name of the first file of a cached template: the folder of the source with underscores for
    slashes, the stem of its name, the digest, and the extension. -/
def artifactName (source : Path) (hash : String) : String :=
  -- a slash takes the dot right before it along
  let folder := source.parent.toString.toList
  let flat := replaceAll ['/'] ['_'] (replaceAll ['.', '/'] ['_'] folder)
  String.ofList flat ++ "_" ++ source.stem ++ "_" ++ hash ++ source.suffix

/-- The files of the cached template of a source. -/
def ArtifactPaths.of (folder source : Path) (hash : String) : ArtifactPaths :=
  let name := artifactName source hash
  ⟨folder.child name, folder.child (name ++ ".idx"), folder.child (name ++ ".tags")⟩

namespace Cache

/-- The JSON value in a file, if the file is not empty. -/
def readJson (d : Directory) (p : Path) : Except Json.ReadError Json :=
  match d.file? p with
  | none => .error .malformed
  | some (content, _) =>
    match decodeTextFile content with
    | .ok chars => Json.parse chars
    | .error _ => .error .malformed

/-- The cached template in some files, of which all three are there. -/
def readTemplate (d : Directory) (paths : ArtifactPaths) :
    Except Json.ReadError CompiledTemplate := do
  let tree ← readJson d paths.tree
  let index ← readJson d paths.index
  let tags ← readJson d paths.tags
  (CompiledTemplate.ofJson tree index tags).mapError fun _ => .malformed

/-- Whether the files of a cached template can be used for a source: all three are there and not
    empty, and the first is not older than the source. -/
def isFresh (d : Directory) (paths : ArtifactPaths) (sourceTime : Int) : Bool :=
  [paths.tree, paths.index, paths.tags].all (fun p =>
      (d.file? p).any fun (content, _) => !content.isEmpty)
    -- a source of the same time is not newer
    && (d.file? paths.tree).any fun (_, time) => sourceTime ≤ time

/-- Load a cached template. Files that cannot be there are missing like any others, unless their
    names are no names at all. Files with other contents are as good as missing, unless they are
    nested too deep to be read. -/
def load (d : Directory) (paths : ArtifactPaths) (sourceTime : Int) :
    Except FileError (Option CompiledTemplate) :=
  if Directory.hasZero paths.tree then .error .zeroInPath
  else if isFresh d paths sourceTime then
    match readTemplate d paths with
    | .ok t => .ok (some t)
    | .error .malformed => .ok none
    | .error .nestedTooDeep => .error .nestedTooDeep
  else .ok none

/-- A path with something behind its last name. -/
def extended (p : Path) (behind : String) : Path := p.parent.child (p.name ++ behind)

/-- Write JSON to a file, by way of another one that is then moved; whether that succeeded. What has
    been written stays. -/
def storeJson (d : Directory) (p : Path) (j : Json) : Bool × Directory :=
  let draft := extended p ".tmp"
  match d.write? draft (encodeUtf8 j.spacedText) with
  | none => (false, d)
  | some written =>
    match written.moveFile? draft p with
    | none => (false, written)
    | some moved => (true, moved)

/-- Write files one after the other until one fails. -/
def storeAll (d : Directory) : List (Path × Json) → Bool × Directory
  | [] => (true, d)
  | (p, j) :: rest =>
    match storeJson d p j with
    | (true, d) => storeAll d rest
    | (false, d) => (false, d)

/-- Store a compiled template in a folder, which is created if need be; whether that succeeded. -/
def store (d : Directory) (folder : Path) (paths : ArtifactPaths) (t : CompiledTemplate) :
    Bool × Directory :=
  match d.makeFolder? folder with
  | none => (false, d)
  | some d =>
    storeAll d
      [(paths.tree, t.treeToJson), (paths.index, t.indexToJson), (paths.tags, t.tagsToJson)]

/-- Remove all cached templates; whether none is left. -/
def purge (d : Directory) (folder : Path) : Bool × Directory :=
  match d.find? folder with
  | none => (!d.isOverlong folder, d)
  | some (.file ..) => (false, d)
  | some (.folder _) =>
    match d.remove? folder with
    | some d => (true, d)
    | none => (false, d)

/-- The state of a cache. -/
structure Snapshot where
  enabled : Bool
  path : Path
  isThere : Bool
  sizeBytes : Nat
  entries : Nat
deriving DecidableEq, Repr

/-- Extensions of files that do not count as cached templates of their own. -/
def besideExtensions : List (List Char) := [".idx".toList, ".tags".toList, ".tmp".toList]

/-- The size of an entry, if it is a file. -/
def sizeOf? : Entry → Option Nat
  | .file content _ => some content.length
  | .folder _ => none

/-- Whether a file stands for a cached template. -/
def isMain (name : String) : Bool := !besideExtensions.any fun e => endsWith e name.toList

/-- Why the state of a cache cannot be told. -/
inductive SnapshotError where
  /-- there is a file in the place of its folder -/
  | notAFolder (folder : Path)
  | file (cause : FileError)
deriving DecidableEq, Repr

/-- The message of the error. -/
def SnapshotError.message : SnapshotError → String
  | notAFolder folder => "Not a folder: " ++ folder.toString
  | file cause => cause.message

/-- The state of the cache. -/
def snapshot (d : Directory) (config : Config) : Except SnapshotError Snapshot :=
  let folder := config.templatesDir
  match d.find? folder with
  | none =>
    if d.isOverlong folder then .error (.file (.nameTooLong folder))
    else .ok ⟨config.cache, folder, false, 0, 0⟩
  | some (.file ..) => .error (.notAFolder folder)
  | some (.folder entries) =>
    let files := entries.filterMap fun (name, entry) => (sizeOf? entry).map fun size => (name, size)
    .ok ⟨config.cache, folder, true, files.foldl (fun total (_, size) => total + size) 0,
      (files.filter fun (name, _) => isMain name).length⟩

end Cache

end BlockTemplate
