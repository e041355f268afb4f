import BlockTemplate.Proofs.Condition.Balance
import BlockTemplate.Proofs.Condition.Evaluation
import Mathlib.Logic.Function.Iterate

/-!
# Postfix form by transpositions

There is another way to the postfix form, which needs no stack. It goes through the tokens from the
left, and moves each operator to the right by transpositions with its neighbour, past operands and
past operators that bind tighter. A group in parentheses is passed as a whole. A closing parenthesis
moves, too, past everything up to the next parenthesis that closes a group around it, and at the end
all parentheses are dropped.

When the tokens of a tree have been gone through, the closing parentheses of its outermost groups
have drifted into what follows the tree, and all that is left of the tree is its postorder.

## Key results

- `Expression.reordersToPostorder`: what is left of the tokens of a tree
- `postfix?_eq_transposed`: transpositions and the stack give the same postfix form
-/

namespace BlockTemplate

namespace Token

/-- A token moves to the right past tokens of a lower rank. Among operators the looser one has the
    higher rank. -/
def rank : Token → Int
  | .operator .openParen => -1
  | .operand _ => 0
  | .operator (.binary op) => op.level
  | .operator .not => notLevel
  | .operator .closeParen => 99

/-- The number of groups that a token is in which has passed another one, `entered` being the number
    before. -/
def groupsAfter (entered : Nat) : Token → Nat
  | .operator .openParen => entered + 1
  | .operator .closeParen => entered - 1
  | _ => entered

/-- Move a token to the right by transpositions with its neighbour: past tokens of a lower rank, and
    to the end of each group that it enters on its way. It is in `entered` groups now. -/
def sink (t : Token) (entered : Nat) : List Token → List Token
  | [] => [t]
  | u :: rest =>
    if 0 < entered ∨ u.rank < t.rank then u :: t.sink (u.groupsAfter entered) rest
    else t :: u :: rest

theorem length_sink (t : Token) (entered : Nat) (rest : List Token) :
    (t.sink entered rest).length = rest.length + 1 := by
  induction rest generalizing entered with
  | nil => rfl
  | cons u rest ih =>
    rw [sink]
    split
    · rw [List.length_cons, ih, List.length_cons]
    · rfl

theorem neg_one_le_rank (t : Token) : -1 ≤ t.rank := by
  match t with
  | .operand _ | .operator .not => exact Int.le_trans (by decide) (Int.natCast_nonneg _)
  | .operator .openParen => exact Int.le_refl _
  | .operator .closeParen => decide
  | .operator (.binary op) => exact Int.le_trans (by decide) (Int.natCast_nonneg op.level)

end Token

/-- Go through tokens from the left, and move each token to the right as far as it goes. The token
    that comes to stand in its place is moved before the next one. -/
def reorder : List Token → List Token
  | [] => []
  | [t] => [t]
  | t :: u :: rest =>
    if u.rank < t.rank then reorder (u :: t.sink (u.groupsAfter 0) rest)
    else t :: reorder (u :: rest)
termination_by tokens => (tokens.length, ((tokens.head?.elim 0 Token.rank) + 1).toNat)
decreasing_by
  · have hlength := t.length_sink (u.groupsAfter 0) rest
    have hlow := u.neg_one_le_rank
    simp only [List.length_cons, hlength, List.head?_cons, Option.elim_some]
    exact Prod.Lex.right _ (by omega)
  · exact Prod.Lex.left _ _ (Nat.lt_succ_self _)

/-- The postfix form that transpositions give. -/
def transposed (tokens : List Token) : List Token := withoutParens (reorder tokens)

/-! ## Where a token stops -/

/-- Whether a token of the rank stays in front of the tokens. -/
def Stops (rank : Int) (rest : List Token) : Prop := ∀ u ∈ rest.head?, rank ≤ u.rank

theorem Stops.cons {rank : Int} {u : Token} (h : rank ≤ u.rank) (rest : List Token) :
    Stops rank (u :: rest) := by
  intro v hv
  cases hv
  exact h

theorem sink_of_stops {t : Token} {rest : List Token} (h : Stops t.rank rest) :
    t.sink 0 rest = t :: rest := by
  cases rest with
  | nil => rfl
  | cons u rest =>
    have hle : ¬ u.rank < t.rank := Int.not_lt.2 (h u rfl)
    simp [Token.sink, hle]

theorem reorder_of_stops {t : Token} {rest : List Token} (h : Stops t.rank rest) :
    reorder (t :: rest) = t :: reorder rest := by
  cases rest with
  | nil => simp [reorder]
  | cons u rest =>
    have hle : ¬ u.rank < t.rank := Int.not_lt.2 (h u rfl)
    rw [reorder, if_neg hle]

/-- The first token may as well be moved at once. -/
theorem reorder_cons (t : Token) (rest : List Token) :
    reorder (t :: rest) = reorder (t.sink 0 rest) := by
  cases rest with
  | nil => rfl
  | cons u rest =>
    by_cases h : u.rank < t.rank
    · rw [reorder, if_pos h, Token.sink, if_pos (.inr h)]
    · rw [sink_of_stops (Stops.cons (Int.not_lt.1 h) rest)]

/-! ## Closing parentheses -/

/-- Let a closing parenthesis go to the right. -/
def drift (rest : List Token) : List Token := (Token.operator .closeParen).sink 0 rest

theorem drift_binary (op : BinaryOperator) (rest : List Token) :
    drift (.operator (.binary op) :: rest) = .operator (.binary op) :: drift rest := by
  have hlevel := op.level_le_loosest
  have hlt : (Token.operator (.binary op)).rank < (Token.operator .closeParen).rank := by
    simp only [Token.rank, loosest] at hlevel ⊢
    omega
  rw [drift, Token.sink, if_pos (.inr hlt)]
  rfl

/-- A closing parenthesis does not pass another one. -/
theorem drift_closeParen (rest : List Token) :
    drift (.operator .closeParen :: rest)
      = .operator .closeParen :: .operator .closeParen :: rest :=
  sink_of_stops (Stops.cons (Int.le_refl _) rest)

theorem iterate_drift_binary (op : BinaryOperator) (k : Nat) (rest : List Token) :
    drift^[k] (.operator (.binary op) :: rest) = .operator (.binary op) :: drift^[k] rest := by
  induction k generalizing rest with
  | zero => rfl
  | succ k ih => rw [Function.iterate_succ_apply, drift_binary, ih, Function.iterate_succ_apply]

/-- What drifts into the tokens does not let an operator further. -/
theorem Stops.drift {rank : Int} (hrank : rank ≤ 99) {rest : List Token} (h : Stops rank rest) :
    Stops rank (drift rest) := by
  cases rest with
  | nil => exact Stops.cons hrank _
  | cons u rest =>
    rw [BlockTemplate.drift, Token.sink]
    split
    · exact Stops.cons (h u rfl) _
    · exact Stops.cons hrank _

theorem Stops.iterate_drift {rank : Int} (hrank : rank ≤ 99) {rest : List Token}
    (h : Stops rank rest) (k : Nat) : Stops rank (BlockTemplate.drift^[k] rest) := by
  induction k generalizing rest with
  | zero => exact h
  | succ k ih => exact ih (h.drift hrank)

/-- Parentheses that drift up to another one are dropped there with it. -/
theorem withoutParens_reorder_iterate_drift (k : Nat) (rest : List Token) :
    withoutParens (reorder (drift^[k] (.operator .closeParen :: rest)))
      = withoutParens (reorder (.operator .closeParen :: rest)) := by
  induction k generalizing rest with
  | zero => rfl
  | succ k ih =>
    rw [Function.iterate_succ_apply, drift_closeParen, ih,
      reorder_of_stops (Stops.cons (Int.le_refl _) rest)]
    rfl

namespace Expression

/-! ## Passing trees -/

/-- The number of groups that are in no other group. -/
def outerGroups : Expression → Nat
  | operand _ => 0
  | group _ => 1
  | not inner => inner.outerGroups
  | binary _ left right => left.outerGroups + right.outerGroups

/-- What has entered a group passes every tree in it. -/
theorem sink_tokens_of_open (t : Token) (e : Expression) (entered : Nat) (rest : List Token) :
    t.sink (entered + 1) (e.tokens ++ rest) = e.tokens ++ t.sink (entered + 1) rest := by
  induction e generalizing entered rest with
  | operand value => simp [tokens, Token.sink, Token.groupsAfter]
  | group inner ih => simp [tokens, Token.sink, Token.groupsAfter, ih]
  | not inner ih => simp [tokens, Token.sink, Token.groupsAfter, ih]
  | binary op left right ihl ihr => simp [tokens, Token.sink, Token.groupsAfter, ihl, ihr]

/-- A token passes a tree whose operators bind tighter. -/
theorem sink_tokens {t : Token} {e : Expression} (he : e.FollowsLevels)
    (hnot : .operator .not ∉ e.tokens) (hlevel : e.level < t.rank) (rest : List Token) :
    t.sink 0 (e.tokens ++ rest) = e.tokens ++ t.sink 0 rest := by
  induction e generalizing rest with
  | operand value =>
    have hlt : (Token.operand value).rank < t.rank := hlevel
    simp [tokens, Token.sink, Token.groupsAfter, hlt]
  | group inner _ =>
    have hpos : 0 < t.rank := hlevel
    have hlt : (Token.operator .openParen).rank < t.rank := Int.lt_trans (by decide) hpos
    -- the group is entered at its first parenthesis and left at its last one
    have hinner := sink_tokens_of_open t inner 0
    simp only [Nat.zero_add] at hinner
    simp [tokens, Token.sink, Token.groupsAfter, hlt, hinner]
  | not inner _ => exact absurd List.mem_cons_self hnot
  | binary op left right ihl ihr =>
    obtain ⟨hleft, hright, hlop, hrop, -⟩ := he
    have hlt : (Token.operator (.binary op)).rank < t.rank := hlevel
    have hop : (op.level : Int) < t.rank := hlevel
    simp only [tokens, List.mem_append, List.mem_cons, not_or] at hnot
    simp [tokens, Token.sink, Token.groupsAfter, hlt, ihl hleft hnot.1 (by omega),
      ihr hright hnot.2.2 (by omega)]

theorem level_le_loosest (e : Expression) : e.level ≤ loosest := by
  cases e with
  | binary op left right => exact op.level_le_loosest
  | _ => exact Nat.zero_le _

theorem drift_tokens {e : Expression} (he : e.FollowsLevels) (hnot : .operator .not ∉ e.tokens)
    (rest : List Token) : drift (e.tokens ++ rest) = e.tokens ++ drift rest := by
  have hlevel := e.level_le_loosest
  refine sink_tokens he hnot ?_ rest
  simp only [loosest, Token.rank] at hlevel ⊢
  omega

theorem iterate_drift_tokens {e : Expression} (he : e.FollowsLevels)
    (hnot : .operator .not ∉ e.tokens) (k : Nat) (rest : List Token) :
    drift^[k] (e.tokens ++ rest) = e.tokens ++ drift^[k] rest := by
  induction k generalizing rest with
  | zero => rfl
  | succ k ih =>
    rw [Function.iterate_succ_apply, drift_tokens he hnot, ih, Function.iterate_succ_apply]

/-! ## Reordering trees -/

/-- An operator behind its left operand moves behind its right one, and stays there. -/
theorem reorder_binary {op : BinaryOperator} {right : Expression} (hright : right.FollowsLevels)
    (hnot : .operator .not ∉ right.tokens) (hlevel : right.level < op.level) {rest : List Token}
    (hrest : Stops op.level rest) :
    reorder (.operator (.binary op) :: (right.tokens ++ rest))
      = reorder (right.tokens ++ .operator (.binary op) :: rest) := by
  have hlt : (right.level : Int) < (Token.operator (.binary op)).rank := Int.ofNat_lt.2 hlevel
  have hstops : Stops (Token.operator (.binary op)).rank rest := hrest
  rw [reorder_cons, sink_tokens hright hnot hlt, sink_of_stops hstops]

/-- Whether of the tokens of a tree the postorder is left, and the closing parentheses of its
    outermost groups are in what follows it, which no operator of the tree goes into. -/
def ReordersToPostorder (e : Expression) : Prop :=
  ∀ ⦃rest : List Token⦄, Stops e.level rest →
    withoutParens (reorder (e.tokens ++ rest))
      = e.postorder ++ withoutParens (reorder (drift^[e.outerGroups] rest))

/-- The parenthesis at the end of a group goes on with what follows the group. -/
theorem ReordersToPostorder.group {inner : Expression} (h : inner.ReordersToPostorder) :
    (group inner).ReordersToPostorder := by
  intro rest _
  have hopen : Stops (Token.operator .openParen).rank
      (inner.tokens ++ .operator .closeParen :: rest) := fun u _ => u.neg_one_le_rank
  have hclose : Stops inner.level (.operator .closeParen :: rest) := by
    have hlevel := inner.level_le_loosest
    refine Stops.cons ?_ rest
    simp only [loosest, Token.rank] at hlevel ⊢
    omega
  have hinner := h hclose
  have hdrift : reorder (.operator .closeParen :: rest) = reorder (drift rest) :=
    reorder_cons _ rest
  rw [withoutParens_reorder_iterate_drift, hdrift] at hinner
  have htokens : (Expression.group inner).tokens ++ rest
      = .operator .openParen :: (inner.tokens ++ .operator .closeParen :: rest) := by
    simp [tokens]
  rw [htokens, reorder_of_stops hopen]
  exact hinner

/-- The left operand is done first, and its parentheses drift behind the right one; then the
    operator moves behind the right operand, which is done next. -/
theorem ReordersToPostorder.binary {op : BinaryOperator} {left right : Expression}
    (hleft : left.ReordersToPostorder) (hright : right.ReordersToPostorder)
    (hlevels : right.FollowsLevels) (hnot : .operator .not ∉ right.tokens)
    (hlop : left.level ≤ op.level) (hrop : right.level < op.level) :
    (binary op left right).ReordersToPostorder := by
  intro rest hrest
  have hloosest : (op.level : Int) ≤ 99 := by
    have hlevel := op.level_le_loosest
    simp only [loosest] at hlevel
    omega
  have hstops : Stops op.level rest := hrest
  have htokens : (Expression.binary op left right).tokens ++ rest
      = left.tokens ++ .operator (.binary op) :: (right.tokens ++ rest) := by
    simp [tokens]
  -- the left operand, in front of the operator
  have hleftStops : Stops left.level (.operator (.binary op) :: (right.tokens ++ rest)) :=
    Stops.cons (Int.ofNat_le.2 hlop) _
  have hfirst := hleft hleftStops
  rw [iterate_drift_binary, iterate_drift_tokens hlevels hnot] at hfirst
  have hbetween := hstops.iterate_drift hloosest left.outerGroups
  -- the right operand, in front of the operator again
  have hrightStops : Stops right.level
      (.operator (.binary op) :: drift^[left.outerGroups] rest) :=
    Stops.cons (Int.ofNat_le.2 (Nat.le_of_lt hrop)) _
  have hsecond := hright hrightStops
  have hafter : Stops (Token.operator (.binary op)).rank
      (drift^[right.outerGroups] (drift^[left.outerGroups] rest)) :=
    hbetween.iterate_drift hloosest right.outerGroups
  rw [iterate_drift_binary, reorder_of_stops hafter] at hsecond
  have hgroups : drift^[(Expression.binary op left right).outerGroups] rest
      = drift^[right.outerGroups] (drift^[left.outerGroups] rest) := by
    rw [outerGroups, Nat.add_comm, Function.iterate_add_apply]
  rw [htokens, hfirst, reorder_binary hlevels hnot hrop hbetween, hsecond, hgroups]
  simp [postorder, withoutParens, Token.isParen]

/-- A tree without negations is reordered to its postorder. -/
theorem reordersToPostorder {e : Expression} (he : e.FollowsLevels)
    (hnot : .operator .not ∉ e.tokens) : e.ReordersToPostorder := by
  induction e with
  | operand value =>
    intro rest hrest
    have hstops : Stops (Token.operand value).rank rest := hrest
    rw [tokens, List.singleton_append, reorder_of_stops hstops]
    rfl
  | group inner ih =>
    simp only [tokens, List.cons_append, List.mem_cons, List.mem_append, not_or] at hnot
    exact (ih he hnot.2.1).group
  | not inner _ => exact absurd List.mem_cons_self hnot
  | binary op left right ihl ihr =>
    obtain ⟨hleft, hright, hlop, hrop, -⟩ := he
    simp only [tokens, List.mem_append, List.mem_cons, not_or] at hnot
    exact .binary (ihl hleft hnot.1) (ihr hright hnot.2.2) hright hnot.2.2 hlop hrop

end Expression

/-- Without negations, transpositions with the neighbour and the stack of operators give the same
    postfix form. -/
theorem postfix?_eq_transposed {s : List Token} (h : IsInfix s) (hnot : .operator .not ∉ s) :
    postfix? s = some (transposed s) := by
  obtain ⟨e, he, rfl⟩ := Expression.exists_expression h
  have hend : Stops e.level [] := fun _ hu => nomatch hu
  have hleft := Expression.reordersToPostorder he hnot hend
  -- behind the last token there is nothing but what has drifted there
  have hnothing (k : Nat) : withoutParens (reorder (drift^[k] [])) = [] := by
    cases k with
    | zero => simp [reorder, withoutParens]
    | succ k =>
      rw [Function.iterate_succ_apply, drift, Token.sink, withoutParens_reorder_iterate_drift]
      simp [reorder, withoutParens, Token.isParen]
  rw [List.append_nil, hnothing, List.append_nil] at hleft
  rw [transposed, hleft, Expression.postfix?_tokens he]

/-- The condition `2 * ( 3 - ( 4 + 5 ) % 6 ) == 7 OR 8`: the parenthesis of the inner group stops at
    that of the outer one, and that one drifts to the end. -/
theorem postfix?_eq_transposed_of_groups :
    let number (n : Int) : Token := .operand (.literal (.int n))
    let s : List Token :=
      [number 2, .operator (.binary .multiply), .operator .openParen, number 3,
        .operator (.binary .subtract), .operator .openParen, number 4, .operator (.binary .add),
        number 5, .operator .closeParen, .operator (.binary .remainder), number 6,
        .operator .closeParen, .operator (.binary .equal), number 7, .operator (.binary .or),
        number 8]
    IsInfix s ∧ .operator .not ∉ s ∧ postfix? s = some (transposed s) := by
  intro number s
  have operand (n : Int) : IsInfix [number n] := .operand _
  have hinner : IsInfix (.operator .openParen
      :: [number 4, .operator (.binary .add), number 5] ++ [.operator .closeParen]) :=
    .group (.binary .add (operand 4) (operand 5))
  have houter := IsInfix.group
    (.binary .subtract (operand 3) (.binary .remainder hinner (operand 6)))
  have h : IsInfix s :=
    .binary .or (.binary .equal (.binary .multiply (operand 2) houter) (operand 7)) (operand 8)
  have hnot : .operator .not ∉ s := by simp [s, number]
  exact ⟨h, hnot, postfix?_eq_transposed h hnot⟩

end BlockTemplate
