import BlockTemplate.Node.Basic
import BlockTemplate.Text.Word

/-!
# Headers of loops

A loop header is `{KEY}, {VALUE} IN {COLLECTION}` or `{VALUE} IN {COLLECTION}`.
-/

namespace BlockTemplate

/-- A name in braces at the start of a text, and what follows it. -/
def bracedName? : List Char → Option (List Char × List Char)
  | '{' :: rest =>
    match rest.takeWhile isWord, rest.dropWhile isWord with
    | c :: name, '}' :: after => some (c :: name, after)
    | _, _ => none
  | _ => none

/-- The text of the tag that a text consists of, if it can be the collection of a loop: a dotted
    name, and behind it perhaps callbacks. -/
def collectionTag? : List Char → Option (List Char)
  | '{' :: rest =>
    let body := rest.dropLast
    match body.takeWhile isEmbeddedName, body.dropWhile isEmbeddedName with
    | [], _ => none
    | _, [] => if rest.getLast? = some '}' then some body else none
    | _, '|' :: calls =>
      if rest.getLast? = some '}' ∧ calls ≠ [] then some body else none
    | _, _ => none
  | _ => none

/-- The collection after the keyword, blanks around it. -/
def collectionAfterIn? (s : List Char) : Option Reference := do
  let rest ← afterPattern? ['I', 'N'] (s.dropWhile isBlank)
  let body ← collectionTag? (rest.dropWhile isBlank)
  return Reference.parse body

/-- The loop that a header denotes. -/
def LoopHeader.parse? (header : List Char) : Option LoopHeader := do
  let (first, rest) ← bracedName? header
  match rest.dropWhile isBlank with
  | ',' :: afterComma =>
    let (second, rest) ← bracedName? (afterComma.dropWhile isBlank)
    let collection ← collectionAfterIn? rest
    return ⟨some (.text (String.ofList first)), .text (String.ofList second), collection⟩
  | rest => return ⟨none, .text (String.ofList first), ← collectionAfterIn? rest⟩

end BlockTemplate
