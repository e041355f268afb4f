import BlockTemplate.NestingError
import BlockTemplate.Tag

/-!
# How deep tags nest

A tag is read by reading the tags in it, and only so many can be open at once. Where more are opened
nothing is known about the text; where the bound is kept, the answer is the one that the rules for
tags give.
-/

namespace BlockTemplate

/-- The most tags that can be open at once. -/
def mostOpenTags : Nat := 990

/-- Whether too many tags are opened before the tag ends, or turns out to be none. Of the tag
    `opened` more are open at the start of the text, `last` being the character before it. -/
def overflowsFrom (opened : Nat) (last : Char) : List Char → Bool
  | [] => false
  | c :: rest =>
    if c = '{' then
      mostOpenTags ≤ opened + 1
        || (rest.head?.map isTagStart).getD false && overflowsFrom (opened + 1) c rest
    else if c = '}' then
      isTagEnd last && match opened with
        | 0 => false
        | opened + 1 => overflowsFrom opened c rest
    else overflowsFrom opened c rest

/-- Whether too many tags are opened by the tag that may start here. -/
def overflows : List Char → Bool
  | '{' :: rest => (rest.head?.map isTagStart).getD false && overflowsFrom 0 '{' rest
  | _ => false

/-- Whether too many tags are opened somewhere in a text. -/
def hasOverflow : List Char → Bool
  | [] => false
  | c :: rest => overflows (c :: rest) || hasOverflow rest

/-- The end of the tag that starts at a position, counted from the start of the text. -/
def readTagEnd (text : List Char) (start : Nat) : Except NestingError (Option Nat) :=
  if overflows (text.drop start) then .error .tags else .ok (tagEnd? text start)

/-- Literal text cut into tags and literal pieces. -/
def readTagPieces (text : List Char) : Except NestingError (List (Piece (List Char))) :=
  if hasOverflow text then .error .tags else .ok (tagPieces text)

/-! ## Answers within the bound -/

theorem eq_of_readTagEnd {text : List Char} {start : Nat} {stop : Option Nat}
    (h : readTagEnd text start = .ok stop) : stop = tagEnd? text start := by
  unfold readTagEnd at h
  split at h
  · exact nomatch h
  · exact (Except.ok.inj h).symm

theorem eq_of_readTagPieces {text : List Char} {pieces : List (Piece (List Char))}
    (h : readTagPieces text = .ok pieces) : pieces = tagPieces text := by
  unfold readTagPieces at h
  split at h
  · exact nomatch h
  · exact (Except.ok.inj h).symm

/-- Only opening braces can be too many. -/
theorem overflowsFrom_eq_false {opened : Nat} {last : Char} {s : List Char}
    (h : opened + 1 + s.count '{' < mostOpenTags) : overflowsFrom opened last s = false := by
  fun_induction overflowsFrom opened last s <;> simp_all <;> grind

end BlockTemplate
