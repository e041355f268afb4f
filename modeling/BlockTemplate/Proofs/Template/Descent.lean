import BlockTemplate.Node.Basic
import BlockTemplate.Proofs.Outcome

/-!
# Properties that go down a template

What holds of a node and is passed on to the nodes right below it holds wherever a path leads.

## Key results

- `Place.Satisfies.follow`: what a path leads to
- `CompiledTemplate.satisfies_locate`: what a name leads to
-/

namespace BlockTemplate

/-- Whether a property of nodes is passed on from each node to the nodes right below it. -/
structure PassesDown (P : Node → Prop) : Prop where
  block : ∀ {name children}, P (.block name children) → ∀ entry ∈ children, P entry.2
  loop : ∀ {header children}, P (.loop header children) → ∀ entry ∈ children, P entry.2
  conditional : ∀ {condition ifChildren elseChildren},
    P (.conditional condition ifChildren elseChildren) →
      (∀ entry ∈ ifChildren, P entry.2) ∧ ∀ entry ∈ elseChildren, P entry.2

/-- Whether a node has a property, or all nodes of a level have. -/
def Place.Satisfies (P : Node → Prop) : Place → Prop
  | .node n => P n
  | .level nodes => ∀ entry ∈ nodes, P entry.2

variable {P : Node → Prop}

theorem satisfies_child {label : Label} {nodes : Children} (h : ∀ entry ∈ nodes, P entry.2)
    {found : Key × Place} (hfound : Place.child label nodes = .ok (some found)) :
    found.2.Satisfies P := by
  obtain ⟨key, -, hfound⟩ := exists_of_bind_eq_ok hfound
  obtain ⟨entry, hentry, rfl⟩ := Option.map_eq_some_iff.1 (Except.ok.inj hfound)
  exact h entry (mem_of_entryOf? hentry).1

theorem Place.Satisfies.step (hP : PassesDown P) {place : Place} (h : place.Satisfies P)
    {label : Label} {found : Key × Place} (hfound : place.step label = .ok (some found)) :
    found.2.Satisfies P := by
  match place, h with
  | .level nodes, h => exact satisfies_child h hfound
  | .node (.block _ children), h => exact satisfies_child (hP.block h) hfound
  | .node (.loop _ children), h => exact satisfies_child (hP.loop h) hfound
  | .node (.conditional _ ifChildren elseChildren), h =>
    have hbranch := Except.ok.inj hfound
    unfold branch? at hbranch
    split at hbranch
    · cases hbranch
      exact (hP.conditional h).1
    · split at hbranch
      · cases hbranch
        exact (hP.conditional h).2
      · exact nomatch hbranch
  | .node (.data _), _ => exact nomatch hfound

/-- What holds of a place holds of what a path leads to from there. -/
theorem Place.Satisfies.follow (hP : PassesDown P) {place : Place} (h : place.Satisfies P)
    {labels : List Label} {found : BlockPath × Place}
    (hfound : place.follow labels = .ok (some found)) : found.2.Satisfies P := by
  induction labels generalizing place found with
  | nil =>
    cases hfound
    exact h
  | cons label rest ih =>
    obtain ⟨next, hnext, hfound⟩ := exists_of_bind_eq_ok hfound
    cases next with
    | none => exact nomatch hfound
    | some next =>
      obtain ⟨below, hbelow, hfound⟩ := exists_of_bind_eq_ok hfound
      obtain ⟨last, rfl, rfl⟩ := Option.map_eq_some_iff.1 (Except.ok.inj hfound)
      have hlast := ih (h.step hP hnext) hbelow
      exact hlast

/-- What holds of the root blocks of a template holds of what a name leads to. -/
theorem CompiledTemplate.satisfies_locate (hP : PassesDown P) {t : CompiledTemplate}
    (h : ∀ entry ∈ t.blocks, P entry.2) {name : String} {found : BlockPath × Place}
    (hfound : t.locate name = .ok (some found)) : found.2.Satisfies P := by
  rw [CompiledTemplate.locate] at hfound
  split at hfound
  · exact nomatch hfound
  · exact nomatch hfound
  · have hroot : (Place.level t.blocks).Satisfies P := h
    exact hroot.follow hP hfound

end BlockTemplate
