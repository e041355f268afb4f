import BlockTemplate.Directory.Basic

/-!
# Changes of directory trees

The steps that turn one tree into another. Files and folders that are the same in both are left
alone.
-/

namespace BlockTemplate

/-- A step on the way from one tree to another. -/
inductive Change where
  | makeFolder (path : String)
  | writeFile (path : String) (content : List UInt8)
  | removeFile (path : String)
  | removeFolder (path : String)
deriving DecidableEq, Repr

namespace Change

/-- Remove an entry. -/
def ofRemoved (path : String) : Entry → Change
  | .file .. => removeFile path
  | .folder _ => removeFolder path

/-- Make room for a file or for a folder. -/
def ofReplaced (path : String) (isFolder : Bool) : Option Entry → List Change
  | some (.file ..) => if isFolder then [removeFile path] else []
  | some (.folder _) => if isFolder then [] else [removeFolder path]
  | none => []

/-- Remove what is in a folder before and not after. -/
def ofDropped (front : String) (before after : Folder) : List Change :=
  (before.filter fun (name, _) => (valueOf? name after).isNone).map fun (name, entry) =>
    ofRemoved (front ++ name) entry

mutual

/-- The steps to an entry. -/
def toEntry (path : String) (before : Option Entry) : Entry → List Change
  | .file content time =>
    match before with
    | some (.file oldContent oldTime) =>
      if oldContent = content ∧ oldTime = time then [] else [writeFile path content]
    | _ => ofReplaced path false before ++ [writeFile path content]
  | .folder entries =>
    match before with
    | some (.folder old) =>
      ofDropped (path ++ "/") old entries ++ toEntries (path ++ "/") old entries
    | _ => ofReplaced path true before ++ makeFolder path :: toEntries (path ++ "/") [] entries

/-- The steps to some entries of a folder. -/
def toEntries (front : String) (before : Folder) : List (String × Entry) → List Change
  | [] => []
  | (name, entry) :: rest =>
    toEntry (front ++ name) (valueOf? name before) entry ++ toEntries front before rest

end

end Change

/-- The steps from one directory to another. -/
def Directory.changes (before after : Directory) : List Change :=
  Change.ofDropped "" before.root after.root ++ Change.toEntries "" before.root after.root

end BlockTemplate
