import BlockTemplate.Condition.Evaluate

/-!
# Expressions

A condition denotes an expression tree, in which the levels of the operators decide what belongs to
which operator. This file defines the trees, the tokens that they are written with, their values,
and what it means that a tree follows the levels.

## Key results

- `existsUnique_expression`: a well-formed sequence of tokens denotes exactly one tree that follows
  the levels
-/

namespace BlockTemplate

/-- A condition as a tree. Parentheses are nodes of their own, so that a tree tells how it is
    written. -/
inductive Expression where
  | operand (value : Argument)
  | group (inner : Expression)
  | not (inner : Expression)
  | binary (op : BinaryOperator) (left right : Expression)

/-- The sequences of tokens that are well formed: operands, groups in parentheses, negations, and
    binary operators between two parts. -/
inductive IsInfix : List Token → Prop where
  | operand (value : Argument) : IsInfix [.operand value]
  | group {s : List Token} (h : IsInfix s) :
    IsInfix (.operator .openParen :: s ++ [.operator .closeParen])
  | not {s : List Token} (h : IsInfix s) : IsInfix (.operator .not :: s)
  | binary (op : BinaryOperator) {s t : List Token} (hs : IsInfix s) (ht : IsInfix t) :
    IsInfix (s ++ .operator (.binary op) :: t)

/-- The level of the negation: it binds looser than comparisons and tighter than `AND`. -/
def notLevel : Nat := 5

/-- The level of the loosest operators. -/
def loosest : Nat := 7

theorem BinaryOperator.level_le_loosest (op : BinaryOperator) : op.level ≤ loosest := by
  cases op <;> decide

theorem BinaryOperator.level_pos (op : BinaryOperator) : 0 < op.level := by
  cases op <;> decide

/-- No binary operator binds as tightly as the negation. -/
theorem BinaryOperator.level_ne_notLevel (op : BinaryOperator) : op.level ≠ notLevel := by
  cases op <;> decide

namespace Expression

/-- The tokens of a tree in their order. -/
def tokens : Expression → List Token
  | operand value => [.operand value]
  | group inner => .operator .openParen :: inner.tokens ++ [.operator .closeParen]
  | not inner => .operator .not :: inner.tokens
  | binary op left right => left.tokens ++ .operator (.binary op) :: right.tokens

/-- The value of a tree. Both operands of an operator are evaluated, the left one first; the first
    error counts. -/
def value (ctx : Context) : Expression → Except RenderError Value
  | operand value => value.operandValue ctx
  | group inner => inner.value ctx
  | not inner => do return .bool !(← inner.value ctx).isTrue
  | binary op left right => do
    let a ← left.value ctx
    let b ← right.value ctx
    op.apply a b

/-- The level of the binary operator at the root. Other trees cannot be cut by an operator to their
    left. -/
def level : Expression → Nat
  | binary op _ _ => op.level
  | _ => 0

/-- Whether the tree ends with the operand of a negation, so that the negation may go on with what
    follows the tree. -/
def endsInNot : Expression → Bool
  | not _ => true
  | binary _ _ right => right.endsInNot
  | _ => false

/-- Whether every operator has the operands that the levels give it: binary operators group to the
    left, and tighter ones first; a negation takes everything to its right up to an operator that is
    looser than itself, also behind a tighter operator. -/
def FollowsLevels : Expression → Prop
  | operand _ => True
  | group inner => inner.FollowsLevels
  | not inner => inner.FollowsLevels ∧ inner.level < notLevel
  | binary op left right =>
    left.FollowsLevels ∧ right.FollowsLevels ∧ left.level ≤ op.level ∧ right.level < op.level
      ∧ (left.endsInNot → notLevel < op.level)

/-! ### Every well-formed sequence has a tree

Trees are joined from the left: an operator with an operand that no operator can cut goes down the
right edge of a tree, to the place where the levels want it. -/

/-- The tree with an operator and a right operand behind it. -/
def attach (op : BinaryOperator) (right : Expression) : Expression → Expression
  | binary o l r =>
    if o.level ≤ op.level ∧ (r.endsInNot → notLevel < op.level) then
      binary op (binary o l r) right
    else binary o l (attach op right r)
  | not e => if notLevel < op.level then binary op (not e) right else not (attach op right e)
  | e => binary op e right

/-- The tree of two trees with an operator between them. -/
def join (op : BinaryOperator) (left : Expression) : Expression → Expression
  | binary o l r => join o (join op left l) r
  | right => attach op right left

/-- The tree with a negation before it. -/
def negate : Expression → Expression
  | binary o l r =>
    if o.level < notLevel then not (binary o l r) else join o (negate l) r
  | e => not e

theorem tokens_attach (op : BinaryOperator) (right e : Expression) :
    (attach op right e).tokens = e.tokens ++ .operator (.binary op) :: right.tokens := by
  fun_induction attach op right e with
  | case1 o l r h => simp [tokens]
  | case2 o l r h ih => simp [tokens, ih]
  | case3 e h => simp [tokens]
  | case4 e h ih => simp [tokens, ih]
  | case5 e _ _ => simp [tokens]

theorem tokens_join (op : BinaryOperator) (left right : Expression) :
    (join op left right).tokens = left.tokens ++ .operator (.binary op) :: right.tokens := by
  fun_induction join op left right with
  | case1 op left o l r ih₁ ih₂ => simp [tokens, ih₁, ih₂]
  | case2 right op left _ => exact tokens_attach op right left

theorem tokens_negate (e : Expression) : (negate e).tokens = .operator .not :: e.tokens := by
  fun_induction negate e with
  | case1 o l r h => simp [tokens]
  | case2 o l r h ih => simp [tokens_join, tokens, ih]
  | case3 e _ => simp [tokens]

theorem level_attach_le (op : BinaryOperator) (right e : Expression) :
    (attach op right e).level ≤ max e.level op.level := by
  fun_cases attach op right e <;> simp only [level] <;> omega

/-- What goes into the operand of a negation does not change the root. -/
theorem level_attach_of_endsInNot {op : BinaryOperator} {e : Expression} (right : Expression)
    (he : e.endsInNot) (hop : ¬ notLevel < op.level) : (attach op right e).level = e.level := by
  cases e with
  | operand value => exact nomatch he
  | group inner => exact nomatch he
  | not inner => simp [attach, hop, level]
  | binary o l r =>
    have hr : r.endsInNot := he
    simp [attach, hr, hop, level]

theorem followsLevels_attach {op : BinaryOperator} {right e : Expression}
    (hright : right.FollowsLevels) (hlevel : right.level = 0) (he : e.FollowsLevels) :
    (attach op right e).FollowsLevels := by
  have hpos := op.level_pos
  have hne := op.level_ne_notLevel
  fun_induction attach op right e with
  -- the operator is loose enough for the whole tree to be its left operand
  | case1 o l r h => exact ⟨he, hright, h.1, by omega, h.2⟩
  | case2 o l r h ih =>
    obtain ⟨hl, hr, hlo, hro, hnot⟩ := he
    -- the operator goes down the right edge; the right part must still bind tighter than the root
    refine ⟨hl, ih hr, hlo, ?_, hnot⟩
    -- in the operand of a negation it leaves the root of the right part as it is, and otherwise
    -- that root is bounded by the two levels
    by_cases hin : r.endsInNot ∧ ¬ notLevel < op.level
    · rw [level_attach_of_endsInNot right hin.1 hin.2]
      exact hro
    · have hlt : op.level < o.level := by grind
      have := level_attach_le op right r
      omega
  | case3 e h => exact ⟨he, hright, Nat.zero_le _, by omega, fun _ => h⟩
  | case4 e h ih =>
    -- a negation takes the operator into its operand
    have := level_attach_le op right e
    have := he.2
    exact ⟨ih he.1, by omega⟩
  | case5 e _ _ =>
    refine ⟨he, hright, ?_, by omega, ?_⟩ <;> cases e <;> simp_all [level, endsInNot]

theorem followsLevels_join {op : BinaryOperator} {left right : Expression}
    (hleft : left.FollowsLevels) (hright : right.FollowsLevels) :
    (join op left right).FollowsLevels := by
  fun_induction join op left right with
  | case1 op left o l r ih₁ ih₂ => exact ih₂ (ih₁ hleft hright.1) hright.2.1
  | case2 right op left hcut =>
    refine followsLevels_attach hright ?_ hleft
    cases right <;> simp_all [level]

theorem followsLevels_negate {e : Expression} (he : e.FollowsLevels) :
    (negate e).FollowsLevels := by
  fun_induction negate e with
  | case1 o l r h => exact ⟨he, h⟩
  | case2 o l r h ih => exact followsLevels_join (ih he.1) he.2.1
  | case3 e hcut => exact ⟨he, by cases e <;> simp_all [level, notLevel]⟩

theorem exists_expression {s : List Token} (h : IsInfix s) :
    ∃ e : Expression, e.FollowsLevels ∧ e.tokens = s := by
  induction h with
  | operand value => exact ⟨.operand value, trivial, rfl⟩
  | group _ ih =>
    obtain ⟨e, he, rfl⟩ := ih
    exact ⟨.group e, he, rfl⟩
  | not _ ih =>
    obtain ⟨e, he, rfl⟩ := ih
    exact ⟨negate e, followsLevels_negate he, tokens_negate e⟩
  | binary op _ _ ihs iht =>
    obtain ⟨l, hl, rfl⟩ := ihs
    obtain ⟨r, hr, rfl⟩ := iht
    exact ⟨join op l r, followsLevels_join hl hr, tokens_join op l r⟩

/-! ### No two trees have the same tokens

A tree can be read back from its tokens: an operator waits, with its left operand, until the levels
say that its right operand is complete. -/

/-- What waits for its last part: a group, a negation, or an operator with its left operand. -/
inductive Frame where
  | group
  | not
  | binary (op : BinaryOperator) (left : Expression)

namespace Frame

/-- The token that the frame was opened by. -/
def operator : Frame → Operator
  | group => .openParen
  | not => .not
  | binary op _ => .binary op

/-- The tree with the last part in its place. -/
def fill : Frame → Expression → Expression
  | group, e => .group e
  | not, e => .not e
  | binary op left, e => .binary op left e

end Frame

/-- The frames on the right edge of a tree, the innermost one first. -/
def frames : Expression → List Frame
  | not inner => inner.frames ++ [.not]
  | binary op left right => right.frames ++ [.binary op left]
  | _ => []

/-- The operand or group at the end of a tree. -/
def last : Expression → Expression
  | not inner => inner.last
  | binary _ _ right => right.last
  | e => e

/-- Whether no frame on top takes its last part before an operator of the level can. -/
def Waits (level : Nat) (waiting : List Operator) : Prop :=
  ∀ o ∈ waiting.head?, o.precedes level = false

theorem foldl_fill_frames (e : Expression) :
    e.frames.foldl (fun e f => f.fill e) e.last = e := by
  induction e with
  | operand value => rfl
  | group inner _ => rfl
  | not inner ih =>
    rw [frames, last, List.foldl_append, ih]
    rfl
  | binary op left right _ ih =>
    rw [frames, last, List.foldl_append, ih]
    rfl

/-- An operator behind a tree that it cannot cut comes after all operators on the right edge. -/
theorem precedes_of_mem_frames {e : Expression} {k : Nat} (he : e.FollowsLevels)
    (hlevel : e.level ≤ k) (hnot : e.endsInNot → notLevel < k) {f : Frame} (hf : f ∈ e.frames) :
    f.operator.precedes k := by
  induction e with
  | operand value => exact nomatch hf
  | group inner _ => exact nomatch hf
  | not inner ih =>
    -- the last frame is the negation itself, and the other ones come from its operand
    have hk : notLevel < k := hnot rfl
    obtain ⟨hinner, hlt⟩ := he
    rcases List.mem_append.1 hf with hf | hf
    · exact ih hinner (by omega) (fun _ => hk) hf
    · rw [List.mem_singleton.1 hf]
      exact decide_eq_true (Nat.le_of_lt hk)
  | binary op left right _ ih =>
    obtain ⟨_, hright, _, hlt, _⟩ := he
    -- the last frame is the root; the right part binds tighter, so its frames come before, too
    have hk : op.level ≤ k := hlevel
    rcases List.mem_append.1 hf with hf | hf
    · exact ih hright (by omega) hnot hf
    · rw [List.mem_singleton.1 hf]
      exact decide_eq_true hk

theorem waits_nil (k : Nat) : Waits k [] := nofun

/-- Whether an operator can take its last part is up to the topmost frame. -/
theorem waits_cons {k : Nat} {o : Operator} (h : o.precedes k = false) (below : List Operator) :
    Waits k (o :: below) := by
  rintro _ ⟨⟩
  exact h

theorem waits_openParen (k : Nat) (below : List Operator) : Waits k (.openParen :: below) :=
  waits_cons rfl below

theorem waits_not {k : Nat} (h : k < notLevel) (below : List Operator) :
    Waits k (.not :: below) :=
  waits_cons (o := .not) (decide_eq_false (Nat.not_le.2 h)) below

theorem waits_binary {k : Nat} {op : BinaryOperator} (h : k < op.level) (below : List Operator) :
    Waits k (.binary op :: below) :=
  waits_cons (o := .binary op) (decide_eq_false (Nat.not_le.2 h)) below

theorem Waits.mono {j k : Nat} (hjk : j ≤ k) {waiting : List Operator} (h : Waits k waiting) :
    Waits j waiting := by
  intro o ho
  have := h o ho
  cases o <;> simp_all [Operator.precedes] <;> omega

/-- Fill all frames that precede an operator of the level. -/
def reduce (level : Nat) : List Frame → Expression → List Frame × Expression
  | [], e => ([], e)
  | f :: below, e =>
    if f.operator.precedes level then reduce level below (f.fill e) else (f :: below, e)

theorem reduce_append {k : Nat} {fs : List Frame} (hfs : ∀ f ∈ fs, f.operator.precedes k)
    (below : List Frame) (hbelow : Waits k (below.map Frame.operator)) (e : Expression) :
    reduce k (fs ++ below) e = (below, fs.foldl (fun e f => f.fill e) e) := by
  induction fs generalizing e with
  | nil =>
    cases below with
    | nil => rfl
    | cons f below =>
      -- what waits below stops the operator
      have hf : f.operator.precedes k = false := hbelow _ rfl
      simp [reduce, hf]
  | cons f fs ih =>
    have hf := hfs f List.mem_cons_self
    simp only [List.cons_append, reduce, hf, if_true, List.foldl_cons]
    exact ih (fun f hf => hfs f (List.mem_cons_of_mem _ hf)) _

/-- No operator on the right edge waits at the end of a group. -/
theorem precedes_loosest {e : Expression} (he : e.FollowsLevels) {f : Frame} (hf : f ∈ e.frames) :
    f.operator.precedes loosest := by
  refine precedes_of_mem_frames he ?_ (fun _ => by decide) hf
  cases e with
  | binary op _ _ => exact op.level_le_loosest
  | _ => exact Nat.zero_le _

/-- Read a tree, with frames that wait and the part in front of the tokens, if there is one. -/
def read : List Frame → Option Expression → List Token → Option Expression
  | waiting, none, .operand value :: rest => read waiting (some (.operand value)) rest
  | waiting, none, .operator .openParen :: rest => read (.group :: waiting) none rest
  | waiting, none, .operator .not :: rest => read (.not :: waiting) none rest
  | waiting, some e, .operator (.binary op) :: rest =>
    let (below, e) := reduce op.level waiting e
    read (.binary op e :: below) none rest
  | waiting, some e, .operator .closeParen :: rest =>
    match reduce loosest waiting e with
    | (.group :: below, e) => read below (some (.group e)) rest
    | _ => none
  | waiting, some e, [] =>
    match reduce loosest waiting e with
    | ([], e) => some e
    | _ => none
  | _, _, _ => none

/-- At the end of a tree its right edge waits. -/
theorem read_tokens {e : Expression} (he : e.FollowsLevels) (waiting : List Frame)
    (hwaits : Waits e.level (waiting.map Frame.operator)) (rest : List Token) :
    read waiting none (e.tokens ++ rest) = read (e.frames ++ waiting) (some e.last) rest := by
  -- by induction on the tree, with anything waiting below it and anything behind it, since the
  -- parts of a tree are read in the middle of its tokens
  induction e generalizing waiting rest with
  | operand value => rfl
  | group inner ih =>
    have he : inner.FollowsLevels := he
    have hwaits (k : Nat) := waits_openParen k (waiting.map Frame.operator)
    -- the closing parenthesis fills all frames down to that of the group
    have hreduce := reduce_append (fun f => precedes_loosest he) (.group :: waiting) (hwaits _)
      inner.last
    rw [foldl_fill_frames] at hreduce
    have hinner := ih he (.group :: waiting) (hwaits _) (.operator .closeParen :: rest)
    simp only [tokens, List.cons_append, List.append_assoc, List.nil_append, read, hinner, hreduce,
      frames, last]
  | not inner ih =>
    obtain ⟨hinner, hlt⟩ := he
    simp only [tokens, List.cons_append, read, ih hinner (.not :: waiting) (waits_not hlt _) rest,
      frames, last, List.append_assoc, List.nil_append]
  | binary op left right ihl ihr =>
    obtain ⟨hleft, hright, hlop, hrop, hnot⟩ := he
    -- the operator fills the right edge of the left tree, and nothing below it
    have hprec : ∀ f ∈ left.frames, f.operator.precedes op.level := fun f hf =>
      precedes_of_mem_frames hleft hlop hnot hf
    have hreduce := reduce_append hprec waiting hwaits left.last
    rw [foldl_fill_frames] at hreduce
    have hright := ihr hright (.binary op left :: waiting) (waits_binary hrop _) rest
    simp only [tokens, List.append_assoc, List.cons_append, ihl hleft waiting (hwaits.mono hlop),
      read, hreduce, hright, frames, last, List.nil_append]

theorem read_tokens_self {e : Expression} (he : e.FollowsLevels) :
    read [] none e.tokens = some e := by
  have hreduce := reduce_append (fun f => precedes_loosest he) [] (waits_nil _) e.last
  rw [foldl_fill_frames] at hreduce
  have hread := read_tokens he [] (waits_nil _) []
  rw [List.append_nil] at hread
  rw [hread, read, hreduce]

/-- The levels leave no choice: every well-formed sequence of tokens denotes exactly one tree. -/
theorem existsUnique_expression {s : List Token} (h : IsInfix s) :
    ∃ e : Expression, e.FollowsLevels ∧ e.tokens = s ∧
      ∀ other : Expression, other.FollowsLevels → other.tokens = s → other = e := by
  obtain ⟨e, he, hs⟩ := exists_expression h
  refine ⟨e, he, hs, fun other hother hs' => ?_⟩
  -- both trees are what is read from the same tokens
  have := read_tokens_self hother
  rw [hs', ← hs, read_tokens_self he] at this
  exact (Option.some.inj this).symm

end Expression

end BlockTemplate
