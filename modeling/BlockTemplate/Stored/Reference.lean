import BlockTemplate.Condition.Postfix
import BlockTemplate.Stored.Reading
import BlockTemplate.Value.Json

/-!
# Stored references and conditions

References and conditions as JSON. Text arguments are stored as they are written, and their embedded
tags are parsed again when they are read.
-/

namespace BlockTemplate

mutual

/-- The stored form of a reference. -/
def Reference.toJson : Reference → Json
  | .mk source name keys calls =>
    .object
      [("source", source), ("name", name), ("keys", .array keys),
       ("callbacks", .array (callsToJson calls))]

def callsToJson : List Call → List Json
  | [] => []
  | .mk name none source :: rest =>
    .object [("name", name), ("args", .null), ("source", source)] :: callsToJson rest
  | .mk name (some arguments) source :: rest =>
    .object
      [("name", name), ("args", .array (argumentsToJson arguments)), ("source", source)]
      :: callsToJson rest

def argumentsToJson : List Argument → List Json
  | [] => []
  | argument :: rest => argument.toJson :: argumentsToJson rest

/-- The stored form of an argument or operand. -/
def Argument.toJson : Argument → Json
  | .literal value => .object [("value", value.toJson)]
  | .text chunks => .object [("value", .text (chunksSource chunks))]
  | .reference target => .object [("ref", target.toJson)]

end

/-- The argument that a stored literal stands for. -/
def Argument.ofLiteral : Json → Argument
  | .text s => .text (embeddedChunks s)
  | j => .literal (Value.ofJson j)

/-- Why something that is no record is no argument, unless it is a scalar. Where a name of a field
    is in it, the field is looked for. -/
def argumentError (j : Json) : StoredError :=
  if j.mentions "ref" then .wrongKind else .notARecord

mutual

/-- Read a stored reference. -/
def Reference.ofJson (j : Json) : Except StoredError Reference := do
  let source ← j.field "source"
  let name ← j.field "name"
  let keys ← j.labelsField "keys"
  let calls ← (← j.partsField "callbacks" fun _ => .notARecord).mapM fun ⟨part, _⟩ =>
    Call.ofJson part
  return .mk source.1 name.1 keys calls
termination_by sizeOf j

/-- Read a stored callback. The source text may be missing, and then is the name. -/
def Call.ofJson (j : Json) : Except StoredError Call := do
  let arguments ← match ← j.field? "args" with
    | none => pure none
    | some part =>
      -- no list of arguments at all is a bare name
      if part.1 matches .null then pure none
      else
        let values ← (← part.1.parts (argumentError ∘ .text)).mapM fun ⟨inner, h⟩ =>
          have : sizeOf inner < sizeOf j := Nat.lt_trans h part.2
          Argument.ofJson inner
        pure (some values)
  let name ← j.field "name"
  let source := ((← j.field? "source").getD name).1
  return .mk name.1 arguments source
termination_by sizeOf j

/-- Read a stored argument or operand. -/
def Argument.ofJson (j : Json) : Except StoredError Argument :=
  match j with
  | .null | .bool _ | .number _ => .error .wrongKind
  | .text s => .error (argumentError (.text s))
  | .array items => .error (argumentError (.array items))
  | j => do
    match ← j.field? "ref" with
    | some ⟨part, _⟩ => return .reference (← Reference.ofJson part)
    | none =>
      match ← j.field? "value" with
      | some part => return .ofLiteral part.1
      | none => return .literal .null
termination_by sizeOf j

end

/-- The stored form of a token. -/
def Token.toJson : Token → Json
  | .operator op => .object [("op", .text op.symbol)]
  | .operand value => value.toJson

/-- Read a stored operator. -/
def Operator.ofJson : Json → Except StoredError Operator
  | .text s => match Operator.ofSymbol? s with
    | some op => .ok op
    | none => .error .unknownOperator
  | .array _ | .object _ => .error .wrongKind
  | _ => .error .unknownOperator

/-- Why something that is no record is no token, unless it is a scalar. -/
def tokenError (j : Json) : StoredError :=
  if j.mentions "op" then .wrongKind else argumentError j

/-- Read a stored token. -/
def Token.ofJson (j : Json) : Except StoredError Token :=
  match j with
  | .null | .bool _ | .number _ => .error .wrongKind
  | .text s => .error (tokenError (.text s))
  | .array items => .error (tokenError (.array items))
  | j => do
    match ← j.field? "op" with
    | some op => return .operator (← Operator.ofJson op.1)
    | none => return .operand (← Argument.ofJson j)

/-- The stored form of a condition. -/
def Condition.toJson (c : Condition) : Json :=
  .object [("source", c.source), ("postfix", .array (c.tokens.map Token.toJson))]

/-- Read the stored tokens of a condition. -/
def tokensOfJson (j : Json) : Except StoredError (List Token) := do
  (← j.parts (tokenError ∘ .text)).mapM fun part => Token.ofJson part.1

/-- Read a stored condition. -/
def Condition.ofJson (j : Json) : Except StoredError Condition := do
  let source ← j.field "source"
  let tokens ← tokensOfJson (← j.field "postfix").1
  return ⟨source.1, tokens⟩

end BlockTemplate
