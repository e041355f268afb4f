/-!
# Quotes, braces and parentheses

Scanners of tag bodies, argument lists and conditions go through a text once and keep track of the
quote that is open and of the braces and parentheses around the current character. Within quotes
nothing opens or closes but the quote itself.
-/

namespace BlockTemplate

/-- A character that opens a quoted section. -/
def isQuote (c : Char) : Bool := c == '\'' || c == '"'

/-- What is open before a character: a quote, and a number of braces and parentheses. -/
structure Nesting where
  quote : Option Char
  braces : Nat
  parens : Nat
deriving DecidableEq, Repr

namespace Nesting

/-- Nothing is open. -/
def outside : Nesting := ⟨none, 0, 0⟩

/-- What is open after a character. A bracket that closes without having been opened is ignored. -/
def after (n : Nesting) (c : Char) : Nesting :=
  match n.quote with
  | some q => if c = q then { n with quote := none } else n
  | none =>
    if isQuote c then { n with quote := some c }
    else if c = '{' then { n with braces := n.braces + 1 }
    else if c = '}' then { n with braces := n.braces - 1 }
    else if c = '(' then { n with parens := n.parens + 1 }
    else if c = ')' then { n with parens := n.parens - 1 }
    else n

/-- Whether the character opens or closes a quoted section. -/
def isMark (n : Nesting) (c : Char) : Bool :=
  match n.quote with
  | some q => c == q
  | none => isQuote c

/-- Neither a quote nor a brace is open. -/
def isPlain (n : Nesting) : Bool := n.quote.isNone && n.braces == 0

/-- What is open after a text. -/
def afterText (n : Nesting) (s : List Char) : Nesting := s.foldl after n

@[simp] theorem afterText_nil (n : Nesting) : n.afterText [] = n := rfl

@[simp] theorem afterText_cons (n : Nesting) (c : Char) (s : List Char) :
    n.afterText (c :: s) = (n.after c).afterText s := rfl

@[simp] theorem afterText_append (n : Nesting) (s t : List Char) :
    n.afterText (s ++ t) = (n.afterText s).afterText t := by
  simp [afterText]

end Nesting

end BlockTemplate
