import BlockTemplate.CommandLine.Run
import BlockTemplate.Directory.Change

/-!
# The program

The command line works on the files below the current directory.
-/

open BlockTemplate CommandLine

/-- How the program is used. -/
def usageText : String :=
  "usage: [-h] [-v] [--log-level LEVEL] COMMAND ...\n\n"
    ++ "  render TEMPLATE [--vars FILE] [--set NAME=VALUE]... [--parse BLOCK]... [--block BLOCK]\n"
    ++ "         [--no-cache] [--config FILE]     print a block of a template\n"
    ++ "  inspect TEMPLATE [--config FILE]        tell the blocks and tags of a template\n"
    ++ "  cache [--clear] [--config FILE]         tell the state of the cache\n"

/-- The version of the program. -/
def versionText : String := "block templates 1.0.0\n"

/-- A file or a folder with all that is in it. What cannot be read and links to folders are left
    out. -/
partial def readListed (listed : IO.FS.DirEntry) : IO (Option Entry) := do
  try
    let facts ← listed.path.metadata
    if (← listed.path.symlinkMetadata).type == .dir then
      let mut entries : Folder := []
      for inner in ← listed.path.readDir do
        if let some entry ← readListed inner then
          entries := (inner.fileName, entry) :: entries
      return some (.folder entries)
    else if facts.type == .file then
      let content ← IO.FS.readBinFile listed.path
      let time := facts.modified.sec * 1000000000 + facts.modified.nsec.toNat
      return some (.file content.data.toList time)
    else return none
  catch _ => return none

/-- The files below the current directory. -/
def readDirectory : IO Directory := do
  let mut root : Folder := []
  for listed in ← (← IO.currentDir).readDir do
    if let some entry ← readListed listed then
      root := (listed.fileName, entry) :: root
  return ⟨root, 0⟩

/-- Carry out a change. -/
def carryOut : Change → IO Unit
  | .makeFolder path => IO.FS.createDir path
  | .writeFile path content => IO.FS.writeBinFile path ⟨content.toArray⟩
  | .removeFile path => IO.FS.removeFile path
  | .removeFolder path => IO.FS.removeDirAll path

/-- The environment variables that matter. -/
def readEnvironment : IO Environment := do
  let mut environment : Environment := []
  for name in [cacheVariable, cacheDirVariable, debugVariable] do
    if let some value ← IO.getEnv name then
      environment := (name, value) :: environment
  return environment

/-- Print what a run ends with. -/
def printOutcome : Except Usage Outcome → IO Unit
  | .error .help => IO.print usageText
  | .error .version => IO.print versionText
  | .error .wrong => IO.eprint usageText
  | .ok (.ok output) => IO.print output
  | .ok (.error e) => IO.eprint e.line

def main (words : List String) : IO UInt32 := do
  let outcome ← match Command.ofWords words with
    | .error usage => pure (Except.error usage)
    | .ok command => do
      let before ← readDirectory
      let (outcome, after) := command.run (← readEnvironment) before
      for change in before.changes after do
        carryOut change
      pure (.ok outcome)
  printOutcome outcome
  return UInt32.ofNat (exitCode outcome)
