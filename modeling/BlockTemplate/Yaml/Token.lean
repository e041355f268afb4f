import BlockTemplate.Number.Arithmetic
import BlockTemplate.Yaml.Plain
import BlockTemplate.Yaml.Quoted

/-!
# Tokens of YAML

A text is cut into scalars and marks. Indentation becomes tokens, too: a block opens where a key or
a dash stands deeper than the block around it, and closes where the text is less deep again.

What stands before a colon is a key, but that shows only at the colon. Hence every scalar and every
bracket that could start a key is kept in mind, as a `SimpleKey`, until it cannot be one any more: a
key and its colon are on one line, and not too far from each other.
-/

namespace BlockTemplate.Yaml

/-- Why a text has no value. -/
inductive Error where
  | malformed
  | nestedTooDeep
  | number (cause : ArithmeticError)
deriving DecidableEq, Repr

/-- What has been read, nothing being malformed. -/
def Error.orMalformed {α : Type} : Option α → Except Error α
  | some a => .ok a
  | none => .error .malformed

/-- The most blocks and brackets that can be open at once. -/
def mostOpen : Nat := 485

/-- A token. -/
inductive Token where
  | documentStart | documentEnd
  | sequenceStart | mappingStart | blockEnd
  | openBracket | closeBracket | openBrace | closeBrace
  | comma | dash | key | colon
  | plain (text : List Char)
  | quoted (text : List Char)
deriving DecidableEq, Repr

/-- What may turn out to be a key: the number of its first token, and where it starts. -/
structure SimpleKey where
  token : Nat
  index : Nat
  line : Nat
  column : Nat
  /-- whether only a key can stand there -/
  isRequired : Bool
deriving DecidableEq, Repr

/-- The most characters from the start of a key to its colon. -/
def longestKey : Nat := 1024

/-- Whether what starts at a place cannot be the key of a colon at the cursor. -/
def SimpleKey.isStale (k : SimpleKey) (c : Cursor) : Bool :=
  k.line != c.line || longestKey < c.index - k.index

/-- An open bracket or brace, and what may be the key around it. -/
structure FlowLevel where
  isMapping : Bool
  outerKey : Option SimpleKey
deriving DecidableEq, Repr

/-- What has been scanned. -/
structure Scanner where
  cursor : Cursor
  tokens : Array Token
  /-- the columns of the open blocks, the innermost first -/
  indents : List Nat
  /-- the open brackets and braces, the innermost first -/
  flow : List FlowLevel
  /-- what may be a key at the present level -/
  key : Option SimpleKey
  /-- whether a key can start here -/
  mayKey : Bool

namespace Scanner

/-- The start of a text. A byte order mark there is passed over. -/
def start (s : List Char) : Scanner :=
  let cursor := Cursor.start s
  let cursor := if s.head? == some '\uFEFF' then cursor.next else cursor
  ⟨cursor, #[], [], [], none, true⟩

def inFlow (s : Scanner) : Bool := !s.flow.isEmpty

/-- Put a token behind the others and go on at a place. -/
def push (s : Scanner) (token : Token) (cursor : Cursor) : Scanner :=
  { s with tokens := s.tokens.push token, cursor }

/-- Put a token behind the others that is one character long. -/
def pushMark (s : Scanner) (token : Token) : Scanner := s.push token s.cursor.next

/-! ## Keys -/

/-- Forget what may be a key. It must not be one that has to be there. -/
def forget? (key : Option SimpleKey) (gone : SimpleKey → Bool) : Option (Option SimpleKey) :=
  match key with
  | none => some none
  | some k => if !gone k then some (some k) else if k.isRequired then none else some none

/-- Forget what may be a key at the present level. -/
def forgetKey? (s : Scanner) : Option Scanner := do
  return { s with key := ← forget? s.key fun _ => true }

/-- Forget all that cannot be keys any more. -/
def forgetStale? (s : Scanner) : Option Scanner := do
  let gone (k : SimpleKey) : Bool := k.isStale s.cursor
  let flow ← s.flow.mapM fun level => do
    return { level with outerKey := ← forget? level.outerKey gone }
  return { s with key := ← forget? s.key gone, flow }

/-- Keep in mind that a key may start here. -/
def keepKey? (s : Scanner) : Option Scanner := do
  if !s.mayKey then return s
  let c := s.cursor
  let isRequired := !s.inFlow && s.indents.head? == some c.column
  return { ← s.forgetKey? with
    key := some ⟨s.tokens.size, c.index, c.line, c.column, isRequired⟩ }

/-! ## Blocks -/

/-- Whether a column is deeper than all open blocks. -/
def isDeeper (s : Scanner) (column : Nat) : Bool := s.indents.head?.all (· < column)

/-- Close the blocks that `closes` holds of, from the innermost on. -/
def closeBlocks (closes : Nat → Bool) (s : Scanner) : Scanner :=
  let closed := s.indents.takeWhile closes
  { s with
    indents := s.indents.dropWhile closes
    tokens := s.tokens ++ (closed.map fun _ => Token.blockEnd).toArray }

/-- Close the blocks that are deeper than the cursor. Between brackets there are no blocks. -/
def unwind (s : Scanner) : Scanner :=
  if s.inFlow then s else s.closeBlocks fun column => s.cursor.column < column

/-- Open a block with a token at the cursor, unless one of its column is open. -/
def openBlock (s : Scanner) (token : Token) : Scanner :=
  if s.isDeeper s.cursor.column then
    { s with indents := s.cursor.column :: s.indents, tokens := s.tokens.push token }
  else s

/-! ## Tokens -/

/-- Skip blanks, breaks and comments. A tab is a blank between brackets only. -/
def skipIdle : (fuel : Nat) → Scanner → Scanner
  | 0, s => s
  | fuel + 1, s =>
    let isBlank (c : Char) : Bool := c == ' ' || s.inFlow && c == '\t'
    let rest := s.cursor.rest.dropWhile isBlank
    let rest := if rest.head? == some '#' then rest.dropWhile fun c => !isBreak c else rest
    let cursor := s.cursor.moveTo rest
    if (rest.head?.map isBreak).getD false then
      -- on a new line of a block there may be a key
      skipIdle fuel { s with cursor := cursor.next, mayKey := s.mayKey || !s.inFlow }
    else { s with cursor }

/-- The mark of a document. -/
def separator? (s : Scanner) (token : Token) : Option Scanner := do
  let s ← (s.closeBlocks fun _ => true).forgetKey?
  return { s with mayKey := false }.push token (s.cursor.skip 3)

/-- An opening bracket or brace. -/
def openFlow? (s : Scanner) (isMapping : Bool) : Option Scanner := do
  let s ← s.keepKey?
  let token := if isMapping then Token.openBrace else .openBracket
  return { s with flow := ⟨isMapping, s.key⟩ :: s.flow, key := none, mayKey := true }.pushMark token

/-- A closing bracket or brace. -/
def closeFlow? (s : Scanner) (token : Token) : Option Scanner := do
  let s ← s.forgetKey?
  match s.flow with
  | [] => none
  | level :: flow => return { s with flow, key := level.outerKey, mayKey := false }.pushMark token

/-- A comma. -/
def comma? (s : Scanner) : Option Scanner := do
  return { ← s.forgetKey? with mayKey := true }.pushMark .comma

/-- The dash of an item. -/
def dash? (s : Scanner) : Option Scanner := do
  if !s.inFlow && !s.mayKey then none
  else
    let s := if s.inFlow then s else s.openBlock .sequenceStart
    return { ← s.forgetKey? with mayKey := true }.pushMark .dash

/-- A colon: what has been kept in mind is a key, and may start a block. -/
def colon? (s : Scanner) : Option Scanner :=
  match s.key with
  | some k =>
    let tokens := s.tokens.insertIdxIfInBounds k.token .key
    let s := { s with tokens, key := none, mayKey := false }
    let s :=
      if !s.inFlow && s.isDeeper k.column then
        { s with
          tokens := s.tokens.insertIdxIfInBounds k.token .mappingStart
          indents := k.column :: s.indents }
      else s
    some (s.pushMark .colon)
  | none =>
    if s.inFlow then some ({ s with mayKey := false }.pushMark .colon)
    -- without a key a colon has to be where a key could be
    else if s.mayKey then some ((s.openBlock .mappingStart).pushMark .colon)
    else none

/-- Whether a colon is the mark of a value. Between brackets it is so in a mapping, even if a word
    follows directly. -/
def isValueMark (s : Scanner) (rest : List Char) : Bool :=
  isWordEnd rest ||
    match s.flow with
    | [] => false
    | level :: _ => level.isMapping && s.tokens.back? != some .colon

/-- A quoted scalar. -/
def quoted? (s : Scanner) (double : Bool) : Option Scanner := do
  let s ← s.keepKey?
  let inner := s.cursor.rest.tail
  let (text, after) ← quotedText? double (inner.length + 1) inner
  return { s with mayKey := false }.push (.quoted text) (s.cursor.moveTo after)

/-- A plain scalar. -/
def plain? (s : Scanner) : Option Scanner := do
  let s ← s.keepKey?
  -- the scalar is deeper than the block that it is in
  let indent := (s.indents.head?.map (· + 1)).getD 0
  let read := takePlain s.inFlow indent (s.cursor.rest.length + 1) s.cursor
  return { s with mayKey := read.endsLine }.push (.plain read.chars) read.after

/-- The token at a character. -/
def token? (s : Scanner) (c : Char) (rest : List Char) : Option Scanner :=
  if s.cursor.column == 0 && isSeparator (c :: rest) then
    s.separator? (if c == '-' then .documentStart else .documentEnd)
  else if c == '[' then s.openFlow? false
  else if c == '{' then s.openFlow? true
  else if c == ']' then s.closeFlow? .closeBracket
  else if c == '}' then s.closeFlow? .closeBrace
  else if c == ',' then s.comma?
  else if c == '-' && isWordEnd rest then s.dash?
  else if c == ':' && s.isValueMark rest then s.colon?
  else if c == '\'' then s.quoted? false
  else if c == '"' then s.quoted? true
  else if startsPlain s.inFlow (c :: rest) then s.plain?
  else none

/-- Whether more blocks and brackets are open than can be. -/
def isTooDeep (s : Scanner) : Bool := mostOpen < s.indents.length + s.flow.length

/-- Scan to the end. Every call reads a character, so that the length of the text is fuel enough. -/
def run : (fuel : Nat) → Scanner → Except Error (List Token)
  | 0, _ => .error .malformed
  | fuel + 1, s =>
    if s.isTooDeep then .error .nestedTooDeep
    else do
      let s ← Error.orMalformed (s.skipIdle (s.cursor.rest.length + 1)).forgetStale?
      let s := s.unwind
      match s.cursor.rest with
      | [] =>
        let s ← Error.orMalformed (s.closeBlocks fun _ => true).forgetKey?
        return s.tokens.toList
      | c :: rest => run fuel (← Error.orMalformed (s.token? c rest))

end Scanner

/-- The tokens of a text. -/
def Token.scan (s : List Char) : Except Error (List Token) :=
  (Scanner.start s).run (s.length + 1)

end BlockTemplate.Yaml
