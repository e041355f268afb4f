import BlockTemplate.Condition.Token
import BlockTemplate.NestingError

/-!
# How deep references nest

An argument of a callback can be a reference of its own, whose callbacks have arguments again. Only
so many references can be open at once; where that bound is kept, reading a reference is parsing it.
-/

namespace BlockTemplate

/-- The most references that can be open at once. -/
def mostOpenReferences : Nat := 247

mutual

/-- The number of references that are open at once in a reference, itself included. -/
def Reference.depth : Reference → Nat
  | .mk _ _ _ calls => callsDepth calls + 1

def callsDepth : List Call → Nat
  | [] => 0
  | .mk _ none _ :: rest => callsDepth rest
  | .mk _ (some arguments) _ :: rest => max (argumentsDepth arguments) (callsDepth rest)

def argumentsDepth : List Argument → Nat
  | [] => 0
  | argument :: rest => max argument.depth (argumentsDepth rest)

/-- The number of references that are open at once in an argument. The tags in a text are not read
    before the text is needed. -/
def Argument.depth : Argument → Nat
  | .literal _ => 0
  | .text _ => 0
  | .reference target => target.depth

end

/-- The number of references that are open at once in a token. -/
def Token.depth : Token → Nat
  | .operator _ => 0
  | .operand value => value.depth

/-- The number of references that are open at once in a chunk. -/
def Chunk.depth : Chunk → Nat
  | .tag target => target.depth
  | _ => 0

/-- What has been parsed, if its depth is within the bound. -/
def withinReferences {α : Type} (depth : α → Nat) (parsed : α) : Except NestingError α :=
  if mostOpenReferences < depth parsed then .error .references else .ok parsed

/-- Read the text between the braces of a tag. -/
def Reference.read (source : List Char) : Except NestingError Reference :=
  withinReferences Reference.depth (.parse source)

/-- Read a word as an argument. -/
def Argument.read (word : List Char) : Except NestingError Argument :=
  withinReferences Argument.depth (.parse word)

/-- Read the tokens of a condition. -/
def Token.readAll (condition : List Char) : Except NestingError (List Token) :=
  (Token.scan condition).mapM (withinReferences Token.depth)

theorem eq_of_withinReferences {α : Type} {depth : α → Nat} {parsed result : α}
    (h : withinReferences depth parsed = .ok result) : result = parsed := by
  unfold withinReferences at h
  split at h
  · exact nomatch h
  · exact (Except.ok.inj h).symm

end BlockTemplate
