import BlockTemplate.FileError
import BlockTemplate.OrderedMap
import BlockTemplate.Text.Order

/-!
# Directory trees

The files below the current directory, with their contents and the times of their last change. What
is outside of the current directory cannot be reached. Every write takes the time of a clock that
never stands still.
-/

namespace BlockTemplate

/-- A file with the time of its last change, in nanoseconds, or a folder. -/
inductive Entry where
  | file (content : List UInt8) (time : Int)
  | folder (entries : List (String × Entry))
deriving Inhabited

/-- The entries of a folder by their names. -/
abbrev Folder := List (String × Entry)

namespace Folder

/-- The entry at the end of a row of names. -/
def find? (entries : Folder) (names : List String) : Option Entry :=
  match names with
  | [] => some (.folder entries)
  | name :: rest =>
    match valueOf? name entries with
    | some (.folder inner) => find? inner rest
    | some (.file content time) => if rest.isEmpty then some (.file content time) else none
    | none => none

/-- Put an entry at the end of a row of names, or remove the one there. The folders on the way must
    be there. -/
def put? (entries : Folder) (entry : Option Entry) (names : List String) : Option Folder :=
  match names with
  | [] => none
  | [name] =>
    some (match entry with
      | some e => upsert name e entries
      | none => removeKey name entries)
  | name :: rest =>
    match valueOf? name entries with
    | some (.folder inner) =>
      (put? inner entry rest).map fun changed => upsert name (.folder changed) entries
    | _ => none

end Folder

/-- The files below the current directory, and the clock. -/
structure Directory where
  root : Folder
  clock : Int
deriving Inhabited

namespace Directory

/-- The clock goes on by this much at each write: a thousandth of a second. -/
def tick : Int := 1000000

def isFolderAt (d : Directory) (names : List String) : Bool :=
  match d.root.find? names with
  | some (.folder _) => true
  | _ => false

/-- Follow names from a place, given backwards. Whatever is passed on the way must be a folder. -/
def walk? (d : Directory) (place : List String) : List String → Option (List String)
  | [] => some place.reverse
  | name :: rest =>
    if !d.isFolderAt place.reverse then none
    -- the name before has been passed as a folder, so that going back undoes it
    else if name = ".." then
      match place with
      | [] => none
      | _ :: above => walk? d above rest
    else walk? d (name :: place) rest

/-- The names on the way from the current directory to a path, double dots resolved; none if the way
    is blocked or leads outside. -/
def names? (d : Directory) (p : Path) : Option (List String) :=
  if p.isAbsolute then none else d.walk? [] p.names

/-- The entry at a path. -/
def find? (d : Directory) (p : Path) : Option Entry :=
  (d.names? p).bind fun names => d.root.find? names

/-- Whether there is anything at a path. -/
def contains (d : Directory) (p : Path) : Bool := (d.find? p).isSome

/-- The content of the file at a path, and the time of its last change. -/
def file? (d : Directory) (p : Path) : Option (List UInt8 × Int) :=
  match d.find? p with
  | some (.file content time) => some (content, time)
  | _ => none

/-- The most bytes of a name. -/
def longestName : Nat := 255

/-- The most bytes of a path. -/
def longestPath : Nat := 4095

def isTooLong (name : String) : Bool := longestName < name.utf8ByteSize

/-- Whether some names, followed from a place given backwards, come upon one that is too long. That
    shows only in a folder that is there. -/
def meetsLongName (d : Directory) (place : List String) : List String → Bool
  | [] => false
  | name :: rest =>
    if !d.isFolderAt place.reverse then false
    else if name = ".." then
      match place with
      | [] => isLongAbove rest
      | _ :: above => d.meetsLongName above rest
    else isTooLong name || d.meetsLongName (name :: place) rest
where
  /-- Whether the first name to be looked up above the current directory is too long. -/
  isLongAbove (names : List String) : Bool :=
    ((names.dropWhile (· == "..")).head?.map isTooLong).getD false

/-- Whether a path holds the character zero, so that nothing can be there. -/
def hasZero (p : Path) : Bool := p.names.any fun name => name.toList.contains '\x00'

/-- Whether a path cannot even be looked up, because it or a name on the way is too long. -/
def isOverlong (d : Directory) (p : Path) : Bool :=
  if hasZero p then false
  else if longestPath < p.toString.utf8ByteSize then true
  else if p.isAbsolute then meetsLongName.isLongAbove p.names
  else d.meetsLongName [] p.names

/-- Look for the file at a path. -/
def seek (d : Directory) (p : Path) : Except FileError (Option (List UInt8 × Int)) :=
  if d.isOverlong p then .error (.nameTooLong p) else .ok (d.file? p)

def isCreatable (name : String) : Bool := !isTooLong name && !name.toList.contains '\x00'

/-- Write a file with a time of change. It must not be a folder, and its folder must be there. -/
def writeAt? (d : Directory) (p : Path) (content : List UInt8) (time : Int) : Option Directory := do
  let names ← d.names? p
  if d.isFolderAt names || !isCreatable p.name then none
  else return { d with root := ← d.root.put? (some (.file content time)) names }

/-- Write a file now. -/
def write? (d : Directory) (p : Path) (content : List UInt8) : Option Directory :=
  (d.writeAt? p content d.clock).map fun d => { d with clock := d.clock + tick }

/-- Move a file to another path, where there may be a file but no folder. -/
def moveFile? (d : Directory) (source target : Path) : Option Directory := do
  let (content, time) ← d.file? source
  let sourceNames ← d.names? source
  -- the file keeps its time of change
  let moved ← d.writeAt? target content time
  return { moved with root := ← moved.root.put? none sourceNames }

/-- Remove what is at a path. -/
def remove? (d : Directory) (p : Path) : Option Directory := do
  return { d with root := ← d.root.put? none (← d.names? p) }

/-- Create the folders on the way of some names, seen from a place given backwards. -/
def createFolders? (d : Directory) (place : List String) : List String → Option Directory
  | [] => some d
  | name :: rest =>
    if name = ".." then
      match place with
      | [] => none
      | _ :: above => createFolders? d above rest
    else
      let names := (name :: place).reverse
      match d.root.find? names with
      | some (.folder _) => createFolders? d (name :: place) rest
      | some (.file ..) => none
      | none =>
        if isCreatable name then
          match d.root.put? (some (.folder [])) names with
          | some root => createFolders? { d with root } (name :: place) rest
          | none => none
        else none

/-- Create the folder at a path and those on the way to it, as far as they are missing. -/
def makeFolder? (d : Directory) (p : Path) : Option Directory :=
  if p.isAbsolute || hasZero p then none else d.createFolders? [] p.names

mutual

/-- The paths of the files in an entry. -/
def entryFiles (path : String) : Entry → List String
  | .file .. => [path]
  | .folder entries => folderFiles (path ++ "/") entries

def folderFiles (front : String) : List (String × Entry) → List String
  | [] => []
  | (name, entry) :: rest => entryFiles (front ++ name) entry ++ folderFiles front rest

end

/-- The paths of all files in order. -/
def files (d : Directory) : List String := sortedBy id (folderFiles "" d.root)

end Directory

end BlockTemplate
