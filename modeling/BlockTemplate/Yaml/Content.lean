import BlockTemplate.Yaml.Token

/-!
# Content of YAML documents

Tokens make scalars, sequences and mappings. What is missing between tokens is an empty scalar.
-/

namespace BlockTemplate.Yaml

/-- What a document is made of. -/
inductive Content where
  | plain (text : List Char)
  | quoted (text : List Char)
  | sequence (items : List Content)
  | mapping (entries : List (Content × Content))
deriving Inhabited

namespace Content

/-- What is missing. -/
def empty : Content := .plain []

/-- Whether one of some tokens comes next. -/
def isNext (expected : List Token) (tokens : List Token) : Bool :=
  (tokens.head?.map expected.contains).getD false

mutual

/-- The content at the start of some tokens, and those behind it. A `loose` sequence is one whose
    items are not deeper than the key that it belongs to. Every call reads a token or hands them on
    to one that does, so that twice the number of tokens is fuel enough. -/
def read? (loose : Bool) : (fuel : Nat) → List Token → Option (Content × List Token)
  | 0, _ => none
  | fuel + 1, tokens =>
    match tokens with
    | .plain text :: rest => some (.plain text, rest)
    | .quoted text :: rest => some (.quoted text, rest)
    | .openBracket :: rest =>
      (flowItems? true fuel rest).map fun (items, after) => (.sequence items, after)
    | .openBrace :: rest =>
      (flowEntries? true fuel rest).map fun (entries, after) => (.mapping entries, after)
    | .sequenceStart :: rest =>
      (blockItems? fuel rest).map fun (items, after) => (.sequence items, after)
    | .mappingStart :: rest =>
      (blockEntries? fuel rest).map fun (entries, after) => (.mapping entries, after)
    | .dash :: _ =>
      if loose then (looseItems? fuel tokens).map fun (items, after) => (.sequence items, after)
      else none
    | _ => none

/-- Content that is missing if one of some tokens comes next. -/
def readUnless? (stops : List Token) (loose : Bool) :
    (fuel : Nat) → List Token → Option (Content × List Token)
  | 0, _ => none
  | fuel + 1, tokens =>
    if isNext stops tokens then some (empty, tokens) else read? loose fuel tokens

/-- A value, if a colon comes next. -/
def readValue? (stops : List Token) (loose : Bool) :
    (fuel : Nat) → List Token → Option (Content × List Token)
  | 0, _ => none
  | fuel + 1, tokens =>
    match tokens with
    | .colon :: rest => readUnless? stops loose fuel rest
    | tokens => some (empty, tokens)

/-- The items of a block, up to its end. -/
def blockItems? : (fuel : Nat) → List Token → Option (List Content × List Token)
  | 0, _ => none
  | fuel + 1, tokens =>
    match tokens with
    | .dash :: rest => do
      let (item, after) ← readUnless? [.dash, .blockEnd] false fuel rest
      let (items, after) ← blockItems? fuel after
      return (item :: items, after)
    | .blockEnd :: rest => some ([], rest)
    | _ => none

/-- The items that are not deeper than their key. -/
def looseItems? : (fuel : Nat) → List Token → Option (List Content × List Token)
  | 0, _ => none
  | fuel + 1, tokens =>
    match tokens with
    | .dash :: rest => do
      let (item, after) ← readUnless? [.dash, .key, .colon, .blockEnd] false fuel rest
      let (items, after) ← looseItems? fuel after
      return (item :: items, after)
    | tokens => some ([], tokens)

/-- The entries of a block, up to its end. -/
def blockEntries? : (fuel : Nat) → List Token → Option (List (Content × Content) × List Token)
  | 0, _ => none
  | fuel + 1, tokens =>
    let stops := [Token.key, .colon, .blockEnd]
    match tokens with
    | .blockEnd :: rest => some ([], rest)
    | tokens => do
      let (key, after) ← match tokens with
        | .key :: rest => readUnless? stops true fuel rest
        | .colon :: rest => pure (empty, .colon :: rest)
        | _ => none
      let (value, after) ← readValue? stops true fuel after
      let (entries, after) ← blockEntries? fuel after
      return ((key, value) :: entries, after)

/-- The items between brackets, up to the closing one. Before every item but the first stands a
    comma. -/
def flowItems? (isFirst : Bool) : (fuel : Nat) → List Token → Option (List Content × List Token)
  | 0, _ => none
  | fuel + 1, tokens =>
    match tokens with
    | .closeBracket :: rest => some ([], rest)
    | .comma :: rest =>
      if isFirst then none
      else if isNext [.closeBracket] rest then some ([], rest.tail)
      else flowItem? fuel rest
    | tokens => if isFirst then flowItem? fuel tokens else none

/-- An item between brackets and those behind it. An entry alone is a mapping. -/
def flowItem? : (fuel : Nat) → List Token → Option (List Content × List Token)
  | 0, _ => none
  | fuel + 1, tokens => do
    let (item, after) ← match tokens with
      | .key :: rest => do
        let (key, after) ← readUnless? [.colon, .comma, .closeBracket] false fuel rest
        let (value, after) ← readValue? [.comma, .closeBracket] false fuel after
        pure (.mapping [(key, value)], after)
      | tokens => read? false fuel tokens
    let (items, after) ← flowItems? false fuel after
    return (item :: items, after)

/-- The entries between braces, up to the closing one. -/
def flowEntries? (isFirst : Bool) :
    (fuel : Nat) → List Token → Option (List (Content × Content) × List Token)
  | 0, _ => none
  | fuel + 1, tokens =>
    match tokens with
    | .closeBrace :: rest => some ([], rest)
    | .comma :: rest =>
      if isFirst then none
      else if isNext [.closeBrace] rest then some ([], rest.tail)
      else flowEntry? fuel rest
    | tokens => if isFirst then flowEntry? fuel tokens else none

/-- An entry between braces and those behind it. A key without a colon has no value. -/
def flowEntry? : (fuel : Nat) → List Token → Option (List (Content × Content) × List Token)
  | 0, _ => none
  | fuel + 1, tokens => do
    let stops := [Token.comma, .closeBrace]
    let ((key, value), after) ← match tokens with
      | .key :: rest => do
        let (key, after) ← readUnless? (.colon :: stops) false fuel rest
        let (value, after) ← readValue? stops false fuel after
        pure ((key, value), after)
      | .colon :: rest => do
        let (value, after) ← readValue? stops false fuel (.colon :: rest)
        pure ((empty, value), after)
      | tokens => do
        let (key, after) ← read? false fuel tokens
        pure ((key, empty), after)
    let (entries, after) ← flowEntries? false fuel after
    return ((key, value) :: entries, after)

end

/-- The content of the only document among some tokens. -/
def ofTokens? (tokens : List Token) : Option Content := do
  let (content, after) ← match tokens with
    | [] => pure (empty, [])
    | .documentStart :: [] => pure (empty, [])
    | .documentStart :: rest => readUnless? [.documentStart, .documentEnd] false (fuel rest) rest
    | tokens => read? false (fuel tokens) tokens
  if after.all (· == .documentEnd) then return content else none
where
  /-- Enough for all calls: each token is read by at most three. -/
  fuel (tokens : List Token) : Nat := 3 * tokens.length + 3

end Content

end BlockTemplate.Yaml
