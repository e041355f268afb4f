import BlockTemplate.Condition.Postfix
import Mathlib.Data.List.Basic

/-!
# Balanced parentheses

The stack algorithm takes any sequence of tokens: operands may be missing or stand side by side, and
operators may stand where nothing waits for them. Only parentheses without a partner make it fail.
Of the groups of a sequence it keeps track by the open parentheses on its stack, and whatever else
has been pushed comes out again.

## Key results

- `postfixFrom_eq_none_iff`: behind a stack the algorithm fails exactly on unbalanced parentheses
- `perm_of_postfixFrom`: what comes out is what was on the stack and in the tokens
- `postfix?_fails_or_permutes`: both for a whole sequence, whose operands keep their order
-/

namespace BlockTemplate

namespace Token

/-- Whether the token is a parenthesis. -/
def isParen : Token → Bool
  | .operator .openParen | .operator .closeParen => true
  | _ => false

/-- Whether the token is a parenthesis that opens a group. -/
def opensGroup : Token → Bool
  | .operator .openParen => true
  | _ => false

/-- Whether the token is a parenthesis that closes a group. -/
def closesGroup : Token → Bool
  | .operator .closeParen => true
  | _ => false

end Token

/-- Tokens without the parentheses among them. -/
def withoutParens (tokens : List Token) : List Token := tokens.filter fun t => !t.isParen

/-! ## Operands -/

/-- The operands of some tokens. -/
def operands (tokens : List Token) : List Argument :=
  tokens.filterMap fun
    | .operand value => some value
    | .operator _ => none

@[simp] theorem operands_append (tokens more : List Token) :
    operands (tokens ++ more) = operands tokens ++ operands more :=
  List.filterMap_append

@[simp] theorem operands_map_operator (operators : List Operator) :
    operands (operators.map .operator) = [] := by
  simp [operands]

theorem mem_operands_of_mem {tokens : List Token} {token : Token} (h : token ∈ tokens)
    {value : Argument} (hvalue : value ∈ operands [token]) : value ∈ operands tokens := by
  -- the operands of all tokens are those before the token, its own, and those after it
  obtain ⟨before, after, rfl⟩ := List.append_of_mem h
  have hsplit : before ++ token :: after = before ++ ([token] ++ after) := rfl
  rw [hsplit, operands_append, operands_append]
  exact List.mem_append_right _ (List.mem_append_left _ hvalue)

/-- The postfix form has the operands of the infix form, in their order. -/
theorem operands_postfixFrom {stack : List Operator} {tokens out : List Token}
    (h : postfixFrom stack tokens = some out) : operands out = operands tokens := by
  fun_induction postfixFrom stack tokens generalizing out with
  | case1 stack hopen => exact nomatch h
  | case2 stack hopen =>
    cases h
    simp [operands]
  | case3 stack value rest ih =>
    obtain ⟨more, hmore, rfl⟩ := Option.map_eq_some_iff.1 h
    have hrest := ih hmore
    simp [operands] at hrest ⊢
    exact hrest
  | case4 stack rest ih => exact ih h
  | case5 stack rest ih => exact ih h
  | case6 => exact nomatch h
  -- what is popped by a parenthesis or an operator are operators, and no operands
  | case7 =>
    rename_i ih
    obtain ⟨more, hmore, rfl⟩ := Option.map_eq_some_iff.1 h
    have hrest := ih hmore
    rw [operands_append, operands_map_operator, hrest]
    rfl
  | case8 =>
    rename_i ih
    obtain ⟨more, hmore, rfl⟩ := Option.map_eq_some_iff.1 h
    have hrest := ih hmore
    rw [operands_append, operands_map_operator, hrest]
    rfl

/-! ## Balance -/

/-- Whether the parentheses of tokens are balanced behind `depth` parentheses that are open: none
    closes too many, and none is left open. -/
structure IsBalancedFrom (depth : Nat) (tokens : List Token) : Prop where
  closes_le : ∀ before, before <+: tokens →
    before.countP Token.closesGroup ≤ depth + before.countP Token.opensGroup
  closes_eq : tokens.countP Token.closesGroup = depth + tokens.countP Token.opensGroup

/-- Whether every parenthesis has its partner. -/
def IsBalanced (tokens : List Token) : Prop := IsBalancedFrom 0 tokens

section
variable {depth : Nat} {rest : List Token}

theorem isBalancedFrom_nil : IsBalancedFrom depth [] ↔ depth = 0 := by
  constructor
  · intro h
    exact h.closes_eq.symm
  · rintro rfl
    refine ⟨fun before h => ?_, rfl⟩
    rw [List.prefix_nil.1 h]
    exact Nat.le_refl _

/-- Behind a token other parentheses are open, as many more as it opens and as many fewer as it
    closes. -/
theorem isBalancedFrom_cons {t : Token} {after : Nat}
    (h : after + (if t.closesGroup then 1 else 0) = depth + (if t.opensGroup then 1 else 0)) :
    IsBalancedFrom depth (t :: rest) ↔ IsBalancedFrom after rest := by
  constructor
  · rintro ⟨hle, heq⟩
    refine ⟨fun before hbefore => ?_, ?_⟩
    · have hlong := hle (t :: before) ((List.prefix_cons_inj t).2 hbefore)
      rw [List.countP_cons, List.countP_cons] at hlong
      omega
    · rw [List.countP_cons, List.countP_cons] at heq
      omega
  · rintro ⟨hle, heq⟩
    refine ⟨fun before hbefore => ?_, ?_⟩
    · rcases List.prefix_cons_iff.1 hbefore with rfl | ⟨short, rfl, hshort⟩
      · exact Nat.zero_le _
      · have hrest := hle short hshort
        rw [List.countP_cons, List.countP_cons]
        omega
    · rw [List.countP_cons, List.countP_cons]
      omega

/-- A parenthesis cannot close where none is open. -/
theorem not_isBalancedFrom_closeParen :
    ¬ IsBalancedFrom 0 (.operator .closeParen :: rest) := by
  intro h
  have hfirst := h.closes_le [.operator .closeParen] (List.prefix_append _ rest)
  exact absurd hfirst (by decide)

end

/-! ## The stack -/

/-- The number of groups that are open on a stack. -/
def openGroups (stack : List Operator) : Nat := stack.count .openParen

/-- What is popped without going beyond a parenthesis opens no group. -/
theorem openParen_not_mem_takeWhile {p : Operator → Bool} (hp : p .openParen = false)
    (stack : List Operator) : .openParen ∉ stack.takeWhile p := by
  intro hmem
  have htrue := List.all_eq_true.1 List.all_takeWhile _ hmem
  rw [hp] at htrue
  cases htrue

theorem openGroups_dropWhile {p : Operator → Bool} (hp : p .openParen = false)
    (stack : List Operator) : openGroups (stack.dropWhile p) = openGroups stack := by
  have hsplit := congrArg openGroups (List.takeWhile_append_dropWhile (p := p) (l := stack))
  have hnone := List.count_eq_zero.2 (openParen_not_mem_takeWhile hp stack)
  simp only [openGroups, List.count_append, hnone, Nat.zero_add] at hsplit
  exact hsplit

/-- Below what is popped for a closing parenthesis there is the one that opens the group. -/
theorem eq_openParen_of_dropWhile {stack below : List Operator} {op : Operator}
    (h : stack.dropWhile (· != .openParen) = op :: below) : op = .openParen := by
  have hhead := List.head_dropWhile_not (· != Operator.openParen) (l := stack) (by simp [h])
  simpa [h] using hhead

/-- Behind a stack the algorithm fails exactly if the tokens close more groups than are open, or
    leave one open. -/
theorem postfixFrom_eq_none_iff {stack : List Operator} {tokens : List Token} :
    postfixFrom stack tokens = none ↔ ¬ IsBalancedFrom (openGroups stack) tokens := by
  fun_induction postfixFrom stack tokens with
  | case1 stack hopen =>
    have hpos : 0 < openGroups stack := List.count_pos_iff.2 (List.contains_iff_mem.1 hopen)
    rw [isBalancedFrom_nil]
    simp
    omega
  | case2 stack hopen =>
    have hzero : openGroups stack = 0 := by simpa [openGroups, List.count_eq_zero] using hopen
    simp [isBalancedFrom_nil, hzero]
  | case3 stack value rest ih =>
    rw [Option.map_eq_none_iff, ih, isBalancedFrom_cons rfl]
  | case4 stack rest ih =>
    rw [ih, isBalancedFrom_cons]
    simp [openGroups, Token.closesGroup, Token.opensGroup]
  | case5 stack rest ih =>
    rw [ih, isBalancedFrom_cons]
    simp [openGroups, Token.closesGroup, Token.opensGroup]
  -- a parenthesis closes the latest group that is open, and fails where there is none
  | case6 stack rest hdrop =>
    have hzero := openGroups_dropWhile (p := (· != .openParen)) rfl stack
    rw [hdrop] at hzero
    rw [← hzero]
    exact iff_of_true rfl not_isBalancedFrom_closeParen
  | case7 stack rest group op below hdrop ih =>
    have hopen := openGroups_dropWhile (p := (· != .openParen)) rfl stack
    rw [hdrop, eq_openParen_of_dropWhile hdrop] at hopen
    rw [Option.map_eq_none_iff, ih, ← hopen, isBalancedFrom_cons]
    simp [openGroups, Token.closesGroup, Token.opensGroup]
  -- an operator pops no parenthesis, so that the open groups stay
  | case8 stack op rest complete waiting ih =>
    have hopen := openGroups_dropWhile (p := Operator.precedes op.level) rfl stack
    rw [Option.map_eq_none_iff, ih, ← hopen, isBalancedFrom_cons]
    simp [openGroups, waiting, Token.closesGroup, Token.opensGroup]

theorem withoutParens_append (tokens more : List Token) :
    withoutParens (tokens ++ more) = withoutParens tokens ++ withoutParens more :=
  List.filter_append ..

/-- A token that is no parenthesis stays. -/
theorem withoutParens_cons {t : Token} (h : t.isParen = false) (rest : List Token) :
    withoutParens (t :: rest) = t :: withoutParens rest := by
  rw [withoutParens, List.filter_cons_of_pos (by simp [h])]
  rfl

/-- A parenthesis is left out. -/
theorem withoutParens_paren {t : Token} (h : t.isParen) (rest : List Token) :
    withoutParens (t :: rest) = withoutParens rest := by
  rw [withoutParens, List.filter_cons_of_neg (by simp [h])]
  rfl

/-- Operators that are no parentheses all stay. -/
theorem withoutParens_map_operator {operators : List Operator}
    (hopen : .openParen ∉ operators) (hclose : .closeParen ∉ operators) :
    withoutParens (operators.map .operator) = operators.map .operator := by
  rw [withoutParens, List.filter_eq_self, List.forall_mem_map]
  intro op hop
  cases op with
  | openParen => exact absurd hop hopen
  | closeParen => exact absurd hop hclose
  | not => rfl
  | binary op => rfl

/-- What is popped comes before what stays on the stack. -/
theorem withoutParens_stack {p : Operator → Bool} (hp : p .openParen = false)
    {stack : List Operator} (hstack : .closeParen ∉ stack) :
    withoutParens (stack.map .operator)
      = (stack.takeWhile p).map .operator
        ++ withoutParens ((stack.dropWhile p).map .operator) := by
  have hclose : .closeParen ∉ stack.takeWhile p := fun hmem =>
    hstack ((List.takeWhile_prefix p).subset hmem)
  have hpopped := withoutParens_map_operator (openParen_not_mem_takeWhile hp stack) hclose
  rw [← hpopped, ← withoutParens_append, ← List.map_append, List.takeWhile_append_dropWhile]

/-- Every token but the parentheses comes out of the stack, once. -/
theorem perm_of_postfixFrom {stack : List Operator} {tokens out : List Token}
    (hstack : .closeParen ∉ stack) (h : postfixFrom stack tokens = some out) :
    out.Perm (withoutParens (stack.map .operator) ++ withoutParens tokens) := by
  fun_induction postfixFrom stack tokens generalizing out with
  | case1 stack hopen => exact nomatch h
  | case2 stack hopen =>
    cases h
    have hopen : .openParen ∉ stack := by simpa using hopen
    rw [withoutParens_map_operator hopen hstack]
    exact .of_eq (List.append_nil _).symm
  | case3 stack value rest ih =>
    obtain ⟨more, hmore, rfl⟩ := Option.map_eq_some_iff.1 h
    rw [withoutParens_cons rfl]
    exact ((ih hstack hmore).cons _).trans List.perm_middle.symm
  | case4 stack rest ih =>
    rw [withoutParens_paren rfl]
    apply ih _ h
    simpa using hstack
  | case5 stack rest ih =>
    have hmore := ih (by simpa using hstack) h
    rw [List.map_cons, withoutParens_cons rfl] at hmore
    rw [withoutParens_cons rfl]
    exact hmore.trans List.perm_middle.symm
  | case6 => exact nomatch h
  | case7 stack rest group op below hdrop =>
    rename_i ih
    obtain ⟨more, hmore, rfl⟩ := Option.map_eq_some_iff.1 h
    have hbelow : .closeParen ∉ below := fun hmem => hstack <|
      (List.dropWhile_suffix (· != .openParen)).subset (hdrop ▸ List.mem_cons_of_mem op hmem)
    -- the group is popped, and its parenthesis is dropped
    have hpop := withoutParens_stack (p := (· != .openParen)) rfl hstack
    rw [hdrop, eq_openParen_of_dropWhile hdrop, List.map_cons, withoutParens_paren rfl] at hpop
    rw [hpop, withoutParens_paren rfl, List.append_assoc]
    exact (ih hbelow hmore).append_left _
  | case8 stack op rest complete waiting =>
    rename_i ih
    obtain ⟨more, hmore, rfl⟩ := Option.map_eq_some_iff.1 h
    have hwaiting : .closeParen ∉ Operator.binary op :: waiting := by
      simp only [List.mem_cons, reduceCtorEq, false_or]
      exact fun hmem => hstack ((List.dropWhile_suffix _).subset hmem)
    have hrest := ih hwaiting hmore
    rw [List.map_cons, withoutParens_cons rfl, List.cons_append] at hrest
    rw [withoutParens_stack (p := Operator.precedes op.level) rfl hstack, withoutParens_cons rfl,
      List.append_assoc]
    exact (hrest.trans List.perm_middle.symm).append_left _

/-- The stack algorithm fails exactly on unbalanced parentheses. Otherwise the tokens come out
    without the parentheses, none is lost or doubled, and the operands keep their order. -/
theorem postfix?_fails_or_permutes (tokens : List Token) :
    (postfix? tokens = none ↔ ¬ IsBalanced tokens)
      ∧ ∀ out, postfix? tokens = some out →
        (∀ t ∈ out, t.isParen = false) ∧ out.Perm (withoutParens tokens)
          ∧ operands out = operands tokens := by
  refine ⟨postfixFrom_eq_none_iff, fun out hout => ?_⟩
  have hperm : out.Perm (withoutParens tokens) := perm_of_postfixFrom List.not_mem_nil hout
  refine ⟨fun t ht => ?_, hperm, operands_postfixFrom hout⟩
  have hkept := List.of_mem_filter (hperm.mem_iff.1 ht)
  simpa using hkept

/-- The tokens `* ( 1 2 ! ) +`: operators without operands, and operands without an operator. -/
theorem postfix?_fails_or_permutes_of_stray :
    let number (n : Int) : Token := .operand (.literal (.int n))
    let s : List Token :=
      [.operator (.binary .multiply), .operator .openParen, number 1, number 2, .operator .not,
        .operator .closeParen, .operator (.binary .add)]
    let out : List Token :=
      [number 1, number 2, .operator .not, .operator (.binary .multiply), .operator (.binary .add)]
    postfix? s = some out ∧ (∀ t ∈ out, t.isParen = false) ∧ out.Perm (withoutParens s)
      ∧ operands out = operands s := by
  intro number s out
  have hout : postfix? s = some out := rfl
  exact ⟨hout, (postfix?_fails_or_permutes s).2 out hout⟩

/-- Unbalanced parentheses are the only error of a condition. -/
theorem Condition.parse_eq_error_iff {source : List Char} {e : CompileError} :
    Condition.parse source = .error e
      ↔ e = .unbalancedParentheses (String.ofList source)
        ∧ ¬ IsBalanced (Token.scan source) := by
  have hfails : postfix? (Token.scan source) = none ↔ ¬ IsBalanced (Token.scan source) :=
    postfixFrom_eq_none_iff
  rw [← hfails, Condition.parse]
  cases postfix? (Token.scan source) with
  | none => simp [eq_comm]
  | some out => simp

end BlockTemplate
