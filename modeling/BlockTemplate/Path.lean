import BlockTemplate.Text.Basic

/-!
# Paths

A path is a root, which may be missing, and names. Empty names and single dots are dropped; double
dots are kept, because what they lead to depends on the directory tree.
-/

namespace BlockTemplate

/-- Where a path starts: at the current directory, or at a root of one or two slashes. -/
inductive PathRoot where
  | relative
  | slash
  | doubleSlash
deriving DecidableEq, Repr, Inhabited

/-- A path to a file or a folder. -/
structure Path where
  root : PathRoot
  names : List String
deriving DecidableEq, Repr, Inhabited

namespace Path

/-- The current directory. -/
def current : Path := ⟨.relative, []⟩

/-- The root that a text starts with. Only exactly two slashes differ from one. -/
def rootOf (s : List Char) : PathRoot :=
  match (s.takeWhile (· == '/')).length with
  | 0 => .relative
  | 2 => .doubleSlash
  | _ => .slash

/-- The path that a text denotes. -/
def ofChars (s : List Char) : Path :=
  ⟨rootOf s, ((splitAtChar '/' s).map String.ofList).filter fun name => name != "" && name != "."⟩

/-- The path that a text denotes. -/
def ofString (s : String) : Path := ofChars s.toList

/-- The slashes that a path starts with. -/
def rootText : PathRoot → String
  | .relative => ""
  | .slash => "/"
  | .doubleSlash => "//"

/-- The text of a path; the current directory is a dot. -/
def toString (p : Path) : String :=
  if p.root = .relative ∧ p.names = [] then "." else rootText p.root ++ "/".intercalate p.names

def isAbsolute (p : Path) : Bool := p.root != .relative

/-- The second path seen from the first one. -/
def join (p q : Path) : Path := if q.isAbsolute then q else ⟨p.root, p.names ++ q.names⟩

/-- The path one name deeper. -/
def child (p : Path) (name : String) : Path := ⟨p.root, p.names ++ [name]⟩

/-- The path without its last name. -/
def parent (p : Path) : Path := ⟨p.root, p.names.dropLast⟩

/-- The last name; nothing if there is none. -/
def name (p : Path) : String := p.names.getLast?.getD ""

/-- The last dot of a name and what follows it. A dot at either end of the name does not count. -/
def suffixOf (name : List Char) : List Char :=
  let extension := (name.reverse.takeWhile (· != '.')).reverse
  let stem := name.take (name.length - extension.length - 1)
  if extension.isEmpty || stem.isEmpty || extension.length == name.length then []
  else '.' :: extension

/-- The extension of the last name, with its dot. -/
def suffix (p : Path) : String := String.ofList (suffixOf p.name.toList)

/-- The last name without its extension. -/
def stem (p : Path) : String :=
  let name := p.name.toList
  String.ofList (name.take (name.length - (suffixOf name).length))

end Path

end BlockTemplate
