import BlockTemplate.Proofs.Value.Equality

/-!
# Exchanging the sides of a comparison

Scalars and sequences compare the other way round when they are exchanged, whatever kinds meet: null
with a text, a truth value with anything, a number with a text that may or may not be a number, a
scalar with a sequence, and two sequences, which are gone through position by position. Mappings
have no part in this, for of two mappings with different keys each is greater than the other one.

## Key results

- `Value.compareItems_cons`: how sequences are gone through
- `Value.compare_swap`: the order of values that are built from scalars and sequences
- `compare_dual`: what follows for the operators
-/

namespace BlockTemplate

namespace Value

/-- Whether a value is built from null, truth values, numbers and texts by sequences alone. -/
inductive IsPlain : Value → Prop where
  | scalar {v : Value} (h : v.isScalar) : IsPlain v
  | sequence {origin : Origin} {items : List Value} (h : ∀ item ∈ items, IsPlain item) :
    IsPlain (.sequence origin items)

/-! ## Sequences -/

section
variable {v w : Value} {items others : List Value}

/-- A position before all those that are looked up is never found. -/
theorem compareItems_cons_of_lt {position start : Nat} {others : List (Key × Value)}
    (h : position < start) :
    compareItems start items ((.int position, w) :: others) = compareItems start items others := by
  induction items generalizing start with
  | nil => rfl
  | cons v rest ih =>
    -- the positions that are looked up grow from `start` on
    have hne : ((Key.int position) == (Key.int start)) = false := by
      rw [Key.int_beq_int, beq_eq_false_iff_ne]
      omega
    have hvalue : valueOf? (Key.int start) ((Key.int position, w) :: others)
        = valueOf? (.int start) others := by
      simp only [valueOf?, hne, Bool.false_eq_true, if_false]
    have hlater : position < start + 1 := by omega
    rw [compareItems, compareItems, hvalue, ih hlater]

/-- Two sequences are compared at their first items, and then at the others. -/
theorem compareItems_cons (start : Nat) (v w : Value) (items others : List Value) :
    compareItems start (v :: items) (indexed start (w :: others))
      = (v.compare w).then (compareItems (start + 1) items (indexed (start + 1) others)) := by
  have hvalue : valueOf? (Key.int start) (indexed start (w :: others)) = some w := by
    simp only [indexed, valueOf?, beq_self_eq_true, if_true]
  have hlater : start < start + 1 := Nat.lt_succ_self start
  rw [compareItems, hvalue, indexed, compareItems_cons_of_lt hlater]

/-- Sequences of one length whose items compare the other way round do so themselves. -/
theorem compareItems_swap (start : Nat) (hlength : items.length = others.length)
    (h : ∀ v ∈ items, ∀ w ∈ others, v.compare w = (w.compare v).swap) :
    compareItems start items (indexed start others)
      = (compareItems start others (indexed start items)).swap := by
  induction items generalizing start others with
  | nil =>
    cases others with
    | nil => rfl
    | cons w others => exact nomatch hlength
  | cons v items ih =>
    cases others with
    | nil => exact nomatch hlength
    | cons w others =>
      have hfirst := h v List.mem_cons_self w List.mem_cons_self
      have hrest : compareItems (start + 1) items (indexed (start + 1) others)
          = (compareItems (start + 1) others (indexed (start + 1) items)).swap := by
        apply ih (start + 1) (Nat.succ.inj hlength)
        intro a ha b hb
        exact h a (List.mem_cons_of_mem _ ha) b (List.mem_cons_of_mem _ hb)
      rw [compareItems_cons, compareItems_cons, Ordering.swap_then, hfirst, hrest]

theorem compare_sequence (o o' : Origin) (items others : List Value) :
    (sequence o items).compare (.sequence o' others)
      = (Ord.compare items.length others.length).then
          (compareItems 0 items (indexed 0 others)) := by
  simp only [compare, entries?, length_indexed]

/-! ## Scalars and sequences -/

/-- A sequence counts by its truth beside null and the truth values, and is greater than all other
    scalars. -/
theorem compareFlat_sequence_swap (o : Origin) (items : List Value) (hv : v.isScalar) :
    v.compareFlat (.sequence o items) = ((sequence o items).compareFlat v).swap := by
  match v with
  | .null | .bool _ => exact compareBool_swap ..
  | .number _ | .text _ => rfl
  | .sequence .. | .mapping .. | .object .. => exact nomatch hv

theorem entries?_of_isScalar (hv : v.isScalar) : v.entries? = none := by
  cases v with
  | null | bool _ | number _ | text _ => rfl
  | _ => exact nomatch hv

/-- Values that are built from scalars and sequences compare the other way round when they are
    exchanged. -/
theorem compare_swap (hv : v.IsPlain) (hw : w.IsPlain) : v.compare w = (w.compare v).swap := by
  -- along the left side, against every right side: the items of two sequences may be of any kinds
  induction hv generalizing w with
  | @scalar v hv =>
    have hflat := entries?_of_isScalar hv
    rw [compare_of_flat (.inl hflat), compare_of_flat (.inr hflat)]
    cases hw with
    | scalar hw => exact compareFlat_swap hv hw
    | @sequence o items _ => exact compareFlat_sequence_swap o items hv
  | @sequence o items hitems ih =>
    cases hw with
    | scalar hw =>
      have hflat := entries?_of_isScalar hw
      rw [compare_of_flat (.inl hflat), compare_of_flat (.inr hflat),
        compareFlat_sequence_swap o items hw, Ordering.swap_swap]
    | @sequence o' others hothers =>
      rw [compare_sequence, compare_sequence, Ordering.swap_then,
        ← compareNat_swap items.length others.length]
      -- the items matter only where there are as many on either side
      by_cases hlength : items.length = others.length
      · have hitems : ∀ v ∈ items, ∀ w ∈ others, v.compare w = (w.compare v).swap := by
          intro v hv w hw
          exact ih v hv (hothers w hw)
        rw [compareItems_swap 0 hlength hitems]
      · have hne : Ord.compare items.length others.length ≠ .eq := by
          intro heq
          exact hlength (Nat.compare_eq_eq.1 heq)
        cases hcompare : Ord.compare items.length others.length with
        | eq => exact absurd hcompare hne
        | lt | gt => rfl

theorem needsUnwritable_comm (v w : Value) : v.needsUnwritable w = w.needsUnwritable v := by
  cases v <;> cases w <;> rfl

end

end Value

/-- The order of values that are built from scalars and sequences is dual: exchanging the sides
    exchanges less and greater. So `<` is `>` with its sides exchanged, and `<=` is `>=`, in their
    failures, too. -/
theorem compare_dual (a b : Value) (ha : a.IsPlain) (hb : b.IsPlain) :
    a.compare b = (b.compare a).swap
      ∧ BinaryOperator.less.apply a b = BinaryOperator.greater.apply b a
      ∧ BinaryOperator.atMost.apply a b = BinaryOperator.atLeast.apply b a := by
  have hswap := Value.compare_swap ha hb
  refine ⟨hswap, ?_, ?_⟩
  · simp only [BinaryOperator.apply, Value.compared, Value.needsUnwritable_comm a b, hswap]
    cases b.compare a <;> rfl
  · simp only [BinaryOperator.apply, Value.compared, Value.needsUnwritable_comm a b, hswap]
    cases b.compare a <;> rfl

/-- Sequences in which all kinds meet: a number with a numeric text, what is not a number with a
    number, null with a text, a truth value with a sequence, and a number with another text. -/
theorem compare_dual_of_mixed :
    let nan : Value := .number (.float .nan)
    let a : Value := .sequence (.host 0)
      [.text " 1.0", nan, .sequence (.host 1) [.null, .bool true], .int 5]
    let b : Value := .sequence (.host 2)
      [.int 1, .int 7, .sequence (.host 3) [.text "", .sequence (.host 4) [.null]], .text "five"]
    (a.IsPlain ∧ b.IsPlain) ∧ a.compare b = .lt ∧ b.compare a = .gt := by
  intro nan a b
  have ha : a.IsPlain := by
    refine .sequence ?_
    simp only [List.forall_mem_cons]
    refine ⟨.scalar rfl, .scalar rfl, .sequence ?_, .scalar rfl, List.forall_mem_nil _⟩
    simp only [List.forall_mem_cons]
    exact ⟨.scalar rfl, .scalar rfl, List.forall_mem_nil _⟩
  have hb : b.IsPlain := by
    refine .sequence ?_
    simp only [List.forall_mem_cons]
    refine ⟨.scalar rfl, .scalar rfl, .sequence ?_, .scalar rfl, List.forall_mem_nil _⟩
    simp only [List.forall_mem_cons]
    refine ⟨.scalar rfl, .sequence ?_, List.forall_mem_nil _⟩
    exact List.forall_mem_cons.2 ⟨.scalar rfl, List.forall_mem_nil _⟩
  have hless : a.compare b = .lt := by decide +kernel
  obtain ⟨hdual, -, -⟩ := compare_dual b a hb ha
  exact ⟨⟨ha, hb⟩, hless, by rw [hdual, hless]; rfl⟩

/-- Of two mappings with different keys each is greater than the other one. -/
example :
    let a : Value := .mapping (.host 0) [(.text "x", .int 1)]
    let b : Value := .mapping (.host 1) [(.text "y", .int 1)]
    a.compare b = .gt ∧ b.compare a = .gt := by decide +kernel

end BlockTemplate
