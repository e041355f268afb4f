import BlockTemplate.Proofs.Condition.Expression

/-!
# Postfix form and value

The postfix form of a condition is the postorder of its expression tree, and running it on a stack
gives the value of the tree. The operators on the right edge of a tree are what the stack of
`postfixFrom` holds when the tokens of the tree have been read.

## Key results

- `Expression.postfix?_tokens`: the postfix form is the postorder of the tree
- `Expression.runTokens_postorder`: the postorder leaves the value of the tree on the stack
- `holds_eq_isTrue_value`: a condition holds if the value of its tree counts as true
-/

namespace BlockTemplate

namespace Expression

/-- The operands and operators of a tree, each operator behind its operands. -/
def postorder : Expression → List Token
  | operand value => [.operand value]
  | group inner => inner.postorder
  | not inner => inner.postorder ++ [.operator .not]
  | binary op left right => left.postorder ++ right.postorder ++ [.operator (.binary op)]

/-- The postorder without the operators on the right edge. -/
def written : Expression → List Token
  | operand value => [.operand value]
  | group inner => inner.postorder
  | not inner => inner.written
  | binary _ left right => left.postorder ++ right.written

/-- The operators on the right edge of a tree, the innermost one first. -/
def edge (e : Expression) : List Operator := e.frames.map Frame.operator

theorem written_append_edge (e : Expression) :
    e.written ++ e.edge.map .operator = e.postorder := by
  induction e with
  | operand value => rfl
  | group inner _ => simp [written, edge, frames, postorder]
  | not inner ih => simp [written, edge, frames, postorder, Frame.operator, ← ih]
  | binary op left right _ ih => simp [written, edge, frames, postorder, Frame.operator, ← ih]

/-- There are no parentheses on the right edge. -/
theorem ne_openParen_of_mem_edge {e : Expression} (he : e.FollowsLevels) {o : Operator}
    (h : o ∈ e.edge) : o ≠ .openParen := by
  obtain ⟨f, hf, rfl⟩ := List.mem_map.1 h
  intro heq
  have hprec := precedes_loosest he hf
  rw [heq] at hprec
  exact nomatch hprec

/-! ### The stack of operators -/

theorem Waits.takeWhile_eq_nil {k : Nat} {stack : List Operator} (h : Waits k stack) :
    stack.takeWhile (Operator.precedes k) = [] := by
  cases stack with
  | nil => rfl
  | cons o below => simp [h o rfl]

theorem Waits.dropWhile_eq_self {k : Nat} {stack : List Operator} (h : Waits k stack) :
    stack.dropWhile (Operator.precedes k) = stack := by
  cases stack with
  | nil => rfl
  | cons o below => simp [h o rfl]

/-- A closing parenthesis takes the right edge of the tree inside, and nothing below it. -/
theorem closing_takes_edge {e : Expression} (he : e.FollowsLevels) (stack : List Operator) :
    (e.edge ++ .openParen :: stack).takeWhile (· != .openParen) = e.edge
      ∧ (e.edge ++ .openParen :: stack).dropWhile (· != .openParen) = .openParen :: stack := by
  have hedge : ∀ o ∈ e.edge, (o != .openParen) = true := fun o ho =>
    bne_iff_ne.2 (ne_openParen_of_mem_edge he ho)
  constructor
  · rw [List.takeWhile_append_of_pos hedge]
    simp
  · rw [List.dropWhile_append_of_pos hedge]
    simp

/-- An operator takes the right edge of its left operand, and nothing below it. -/
theorem operator_takes_edge {e : Expression} (he : e.FollowsLevels) {k : Nat}
    (hlevel : e.level ≤ k) (hnot : e.endsInNot → notLevel < k) {stack : List Operator}
    (hwaits : Waits k stack) :
    (e.edge ++ stack).takeWhile (Operator.precedes k) = e.edge
      ∧ (e.edge ++ stack).dropWhile (Operator.precedes k) = stack := by
  have hedge : ∀ o ∈ e.edge, o.precedes k = true := by
    intro o ho
    obtain ⟨f, hf, rfl⟩ := List.mem_map.1 ho
    exact precedes_of_mem_frames he hlevel hnot hf
  constructor
  · rw [List.takeWhile_append_of_pos hedge, hwaits.takeWhile_eq_nil, List.append_nil]
  · rw [List.dropWhile_append_of_pos hedge, hwaits.dropWhile_eq_self]

/-- At the end of a tree its right edge is on the stack, and the rest of its postorder is
    written. -/
theorem postfixFrom_tokens {e : Expression} (he : e.FollowsLevels) (stack : List Operator)
    (hwaits : Waits e.level stack) (rest : List Token) :
    postfixFrom stack (e.tokens ++ rest)
      = (postfixFrom (e.edge ++ stack) rest).map (e.written ++ ·) := by
  -- by induction on the tree, with anything on the stack and anything behind the tokens
  induction e generalizing stack rest with
  | operand value => rfl
  | group inner ih =>
    have he : inner.FollowsLevels := he
    obtain ⟨htake, hdrop⟩ := closing_takes_edge he stack
    simp only [tokens, List.cons_append, List.append_assoc, List.nil_append, postfixFrom,
      ih he _ (waits_openParen _ stack), htake, hdrop, Option.map_map, written,
      ← written_append_edge]
    rfl
  | not inner ih =>
    obtain ⟨hinner, hlt⟩ := he
    simp only [tokens, List.cons_append, postfixFrom, ih hinner _ (waits_not hlt stack), written]
    simp [edge, frames, Frame.operator]
  | binary op left right ihl ihr =>
    obtain ⟨hleft, hright, hlop, hrop, hnot⟩ := he
    have hstack : Waits op.level stack := hwaits
    obtain ⟨htake, hdrop⟩ := operator_takes_edge hleft hlop hnot hstack
    have hright := ihr hright _ (waits_binary hrop stack)
    simp only [tokens, List.append_assoc, List.cons_append, ihl hleft stack (hstack.mono hlop),
      postfixFrom, htake, hdrop, hright, Option.map_map, written,
      ← written_append_edge left]
    simp [edge, frames, Frame.operator, Function.comp_def]

/-- The postfix form of the tokens of a tree is the postorder of the tree. -/
theorem postfix?_tokens {e : Expression} (he : e.FollowsLevels) :
    postfix? e.tokens = some e.postorder := by
  have hedge : e.edge.contains .openParen = false := by
    rw [List.contains_eq_mem, decide_eq_false_iff_not]
    exact fun h => ne_openParen_of_mem_edge he h rfl
  have h := postfixFrom_tokens he [] (waits_nil _) []
  rw [List.append_nil, List.append_nil] at h
  rw [postfix?, h, postfixFrom, hedge, ← written_append_edge]
  rfl

/-! ### The stack of values -/

/-- The postorder of a tree leaves its value on the stack, whatever lies below it. -/
theorem runTokens_postorder (ctx : Context) (e : Expression) (stack : List Value)
    (rest : List Token) :
    runTokens ctx stack (e.postorder ++ rest)
      = e.value ctx >>= fun v => runTokens ctx (v :: stack) rest := by
  -- the stack and what follows stay arbitrary: the operands of an operator are in the middle
  induction e generalizing stack rest with
  | operand value =>
    simp only [postorder, List.cons_append, List.nil_append, runTokens, Token.run, Expression.value,
      bind_assoc, pure_bind]
  | group inner ih => exact ih stack rest
  | not inner ih =>
    simp only [postorder, List.append_assoc, ih, List.cons_append, List.nil_append, runTokens,
      Token.run, Operator.run, Expression.value, bind_assoc, pure_bind]
    rfl
  | binary op left right ihl ihr =>
    simp only [postorder, List.append_assoc, ihl, ihr, List.cons_append, List.nil_append, runTokens,
      Token.run, Operator.run, Expression.value, bind_assoc, pure_bind, List.tail_cons,
      List.head?_cons, Option.getD_some]

end Expression

/-- A well-formed condition denotes one tree that follows the levels. It can be put into postfix
    form, and in every context it holds if the value of the tree counts as true; if the tree has no
    value, it fails with the same error. -/
theorem holds_eq_isTrue_value {s : List Token} (h : IsInfix s) :
    ∃ e : Expression, e.FollowsLevels ∧ e.tokens = s ∧
      (∀ other : Expression, other.FollowsLevels → other.tokens = s → other = e) ∧
      ∃ tokens, postfix? s = some tokens ∧ ∀ (source : Label) (ctx : Context),
        (Condition.mk source tokens).holds ctx = (e.value ctx).map Value.isTrue := by
  obtain ⟨e, he, rfl, hunique⟩ := Expression.existsUnique_expression h
  refine ⟨e, he, rfl, hunique, e.postorder, Expression.postfix?_tokens he, fun source ctx => ?_⟩
  have hrun := Expression.runTokens_postorder ctx e [] []
  rw [List.append_nil] at hrun
  rw [Condition.holds, hrun]
  -- one value is left on the stack, or the error of the tree comes through
  cases e.value ctx <;> rfl

/-- The condition `2 * ! 0 == 1 AND ( 3 )`: its first negation takes the comparison, although it
    follows a tighter operator. -/
theorem holds_eq_isTrue_value_of_nested_not :
    let number (n : Int) : Token := .operand (.literal (.int n))
    let s : List Token :=
      [number 2, .operator (.binary .multiply), .operator .not, number 0,
        .operator (.binary .equal), number 1, .operator (.binary .and), .operator .openParen,
        number 3, .operator .closeParen]
    IsInfix s ∧ ∃ e : Expression, e.FollowsLevels ∧ e.tokens = s ∧
      (∀ other : Expression, other.FollowsLevels → other.tokens = s → other = e) ∧
      ∃ tokens, postfix? s = some tokens ∧ ∀ (source : Label) (ctx : Context),
        (Condition.mk source tokens).holds ctx = (e.value ctx).map Value.isTrue := by
  intro number s
  have operand (n : Int) : IsInfix [number n] := .operand _
  have h : IsInfix s :=
    .binary .and (.binary .multiply (operand 2) (.not (.binary .equal (operand 0) (operand 1))))
      (.group (operand 3))
  exact ⟨h, holds_eq_isTrue_value h⟩

end BlockTemplate
