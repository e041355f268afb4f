import BlockTemplate.Label
import BlockTemplate.Value.Basic

/-!
# Variable references

A tag refers to a variable by its name and a dotted path, and then passes the value through a chain
of callbacks: `NAME.key.key|callback(argument, argument)|callback`. The text arguments of callbacks
can hold tags of their own.
-/

namespace BlockTemplate

mutual

/-- An argument of a callback, or an operand of a condition. -/
inductive Argument where
  /-- a literal that is no text -/
  | literal (value : Value)
  /-- a text, cut into the tags in it and literal chunks -/
  | text (chunks : List Chunk)
  | reference (target : Reference)

/-- A piece of a text with tags. -/
inductive Chunk where
  | literal (text : String)
  | tag (target : Reference)
  /-- what stands in the place of a literal text in a damaged template -/
  | other (label : Label)

/-- A callback in a chain with its arguments, if it has parentheses, and its source text. -/
inductive Call where
  | mk (name : Label) (arguments : Option (List Argument)) (source : Label)

/-- What a tag refers to, with the source text between its braces. -/
inductive Reference where
  | mk (source name : Label) (keys : List Label) (calls : List Call)

end

instance : Inhabited Reference := ⟨.mk (.text "") (.text "") [] []⟩

instance : Inhabited Call := ⟨.mk (.text "") none (.text "")⟩

instance : Inhabited Argument := ⟨.literal .null⟩

namespace Call

def name : Call → Label
  | mk name _ _ => name

def arguments : Call → Option (List Argument)
  | mk _ arguments _ => arguments

def source : Call → Label
  | mk _ _ source => source

end Call

namespace Reference

def source : Reference → Label
  | mk source _ _ _ => source

def name : Reference → Label
  | mk _ name _ _ => name

def keys : Reference → List Label
  | mk _ _ keys _ => keys

def calls : Reference → List Call
  | mk _ _ _ calls => calls

/-- The name and the keys with dots between them. -/
def path (r : Reference) : String := ".".intercalate ((r.name :: r.keys).map Json.shown)

/-- Whether the name and the keys are texts, so that there is a path. -/
def hasPath (r : Reference) : Bool := (r.name :: r.keys).all Json.isText

/-- The tag as it is written. -/
def toSource (r : Reference) : String := "\x7b" ++ r.source.shown ++ "\x7d"

/-- Whether the tag can be written. -/
def hasSource (r : Reference) : Bool := r.source.isText

end Reference

namespace Chunk

/-- The chunk as it is written. -/
def toSource : Chunk → String
  | .literal text => text
  | .tag target => target.toSource
  | .other label => label.shown

/-- Whether the chunk can be written. -/
def hasSource : Chunk → Bool
  | .literal _ => true
  | .tag target => target.hasSource
  | .other _ => false

end Chunk

/-- A text with tags as it is written. -/
def chunksSource (chunks : List Chunk) : String := String.join (chunks.map Chunk.toSource)

/-- The name of the host globals. -/
def globalsName : String := "PHP"

/-- Stands for the running value within a text argument. -/
def runningValueMark : String := "$this"

end BlockTemplate
