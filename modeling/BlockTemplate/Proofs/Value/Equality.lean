import BlockTemplate.Condition.Evaluate
import BlockTemplate.Proofs.Value.Containers
import BlockTemplate.Proofs.Value.Order
import Mathlib.Data.List.Perm.Subperm

/-!
# Loose equality and the loose order

Arrays are equal, and neither of them is the greater one, under the same condition on their entries:
there are as many on either side, and each entry of the left side has its key on the right side,
with a value for which the same holds. No key stands twice in an array, so that the right side has
no other keys, and the sides can be exchanged.

## Key results

- `Value.looselyEqual_eq_compare`: equality is what the order finds equal
- `Value.looselyEqual_refl`, `Value.looselyEqual_comm`: a value equals itself, from either side
- `Value.looselyEqual_iff_of_entries`: arrays with the same keys and equal values
- `Value.looselyEqual_agrees_with_compare`: equality, the order and the operators that use them
-/

namespace BlockTemplate

namespace Value

/-! ## Entries of arrays -/

section
variable {v w : Value} {entries others : List (Key × Value)}

theorem compareItems_eq_compareEntries (start : Nat) (items : List Value)
    (others : List (Key × Value)) :
    compareItems start items others = compareEntries (indexed start items) others := by
  induction items generalizing start with
  | nil => rfl
  | cons v rest ih => rw [compareItems, indexed, compareEntries, ih]

theorem looselyEqualItems_eq_looselyEqualEntries (start : Nat) (items : List Value)
    (others : List (Key × Value)) :
    looselyEqualItems start items others = looselyEqualEntries (indexed start items) others := by
  induction items generalizing start with
  | nil => rfl
  | cons v rest ih => rw [looselyEqualItems, indexed, looselyEqualEntries, ih]

theorem length_indexed (start : Nat) (items : List Value) :
    (indexed start items).length = items.length := by
  induction items generalizing start with
  | nil => rfl
  | cons v rest ih => rw [indexed, List.length_cons, List.length_cons, ih]

theorem compare_of_entries (hv : v.entries? = some entries) (hw : w.entries? = some others) :
    v.compare w
      = (Ord.compare entries.length others.length).then (compareEntries entries others) := by
  match v with
  | .sequence o items =>
    cases hv
    rw [compare, hw, length_indexed, ← compareItems_eq_compareEntries]
  | .mapping o es =>
    cases hv
    rw [compare, hw]
  | .null | .bool _ | .number _ | .text _ | .object .. => exact nomatch hv

theorem looselyEqual_of_entries (hv : v.entries? = some entries) (hw : w.entries? = some others) :
    v.looselyEqual w
      = (entries.length == others.length && looselyEqualEntries entries others) := by
  match v with
  | .sequence o items =>
    cases hv
    rw [looselyEqual, hw, length_indexed, ← looselyEqualItems_eq_looselyEqualEntries]
  | .mapping o es =>
    cases hv
    rw [looselyEqual, hw]
  | .null | .bool _ | .number _ | .text _ | .object .. => exact nomatch hv

/-- Two values of which not both are arrays. -/
theorem compare_of_flat (h : v.entries? = none ∨ w.entries? = none) :
    v.compare w = v.compareFlat w := by
  match v with
  | .sequence o items =>
    have hw : w.entries? = none := h.resolve_left fun hv => nomatch hv
    rw [compare, hw]
    cases w <;> rfl
  | .mapping o es =>
    have hw : w.entries? = none := h.resolve_left fun hv => nomatch hv
    rw [compare, hw]
    cases w <;> rfl
  | .null | .bool _ | .number _ | .text _ | .object .. => simp only [compare]

theorem looselyEqual_of_flat (h : v.entries? = none ∨ w.entries? = none) :
    v.looselyEqual w = v.looselyEqualFlat w := by
  match v with
  | .sequence o items =>
    have hw : w.entries? = none := h.resolve_left fun hv => nomatch hv
    rw [looselyEqual, hw]
    cases w <;> rfl
  | .mapping o es =>
    have hw : w.entries? = none := h.resolve_left fun hv => nomatch hv
    rw [looselyEqual, hw]
    cases w <;> rfl
  | .null | .bool _ | .number _ | .text _ | .object .. => simp only [looselyEqual]

theorem sizeOf_lt_of_mem_indexed {start : Nat} {items : List Value} {entry : Key × Value}
    (h : entry ∈ indexed start items) : sizeOf entry.2 < sizeOf items :=
  List.sizeOf_lt_of_mem (mem_of_mem_indexed h)

theorem sizeOf_lt_of_mem_entries (hv : v.entries? = some entries) {entry : Key × Value}
    (hentry : entry ∈ entries) : sizeOf entry.2 < sizeOf v := by
  match v with
  | .sequence o items =>
    cases hv
    have hlt := sizeOf_lt_of_mem_indexed hentry
    simp only [sequence.sizeOf_spec]
    omega
  | .mapping o es =>
    cases hv
    have hlt := List.sizeOf_lt_of_mem hentry
    have hsnd : sizeOf entry = 1 + sizeOf entry.1 + sizeOf entry.2 := rfl
    simp only [mapping.sizeOf_spec]
    omega
  | .null | .bool _ | .number _ | .text _ | .object .. => exact nomatch hv

/-- What holds of a value if it holds of the values in its entries holds of every value. -/
theorem induction_on_entries {P : Value → Prop}
    (h : ∀ v, (∀ entries, v.entries? = some entries → ∀ entry ∈ entries, P entry.2) → P v)
    (v : Value) : P v :=
  h v fun _ hentries entry hentry =>
    have := sizeOf_lt_of_mem_entries hentries hentry
    induction_on_entries h entry.2
termination_by sizeOf v

theorem looselyEqualEntries_iff : looselyEqualEntries entries others = true
    ↔ ∀ entry ∈ entries, ∃ w, valueOf? entry.1 others = some w ∧ entry.2.looselyEqual w := by
  induction entries with
  | nil => simp [looselyEqualEntries]
  | cons entry rest ih =>
    rw [looselyEqualEntries, List.forall_mem_cons]
    cases valueOf? entry.1 others with
    | none => simp
    | some w => simp [ih]

end

/-! ## Equality is what the order finds equal -/

theorem then_beq_eq (a b : Ordering) : (a.then b == .eq) = (a == .eq && b == .eq) := by
  cases a <;> rfl

theorem compareNat_beq_eq (m n : Nat) : (Ord.compare m n == .eq) = (m == n) := by
  rw [Bool.eq_iff_iff, beq_iff_eq, beq_iff_eq]
  exact Nat.compare_eq_eq

theorem compareBool_beq_eq (a b : Bool) : (compareBool a b == .eq) = (a == b) := by
  cases a <;> cases b <;> rfl

/-- A container is equal to what the order does not tell from it: null and the truth values of its
    own truth, and, for an object, itself. -/
theorem looselyEqualFlat_eq_compareFlat (v w : Value) :
    v.looselyEqualFlat w = (v.compareFlat w == .eq) := by
  cases v <;> cases w <;>
    simp [looselyEqualFlat, compareFlat, isContainer, isScalar, isArray, isTrue, compareBool_beq_eq]

theorem looselyEqualEntries_eq_compareEntries {entries : List (Key × Value)}
    (h : ∀ entry ∈ entries, ∀ w, entry.2.looselyEqual w = (entry.2.compare w == .eq))
    (others : List (Key × Value)) :
    looselyEqualEntries entries others = (compareEntries entries others == .eq) := by
  induction entries with
  | nil => rfl
  | cons entry rest ih =>
    obtain ⟨hentry, hrest⟩ := List.forall_mem_cons.1 h
    rw [looselyEqualEntries, compareEntries]
    cases valueOf? entry.1 others with
    | none => rfl
    | some w =>
      simp only
      rw [then_beq_eq, hentry w, ih hrest]

/-- Two values are equal if and only if neither is before the other. -/
theorem looselyEqual_eq_compare (v w : Value) : v.looselyEqual w = (v.compare w == .eq) := by
  induction v using induction_on_entries generalizing w with
  | h v ih =>
    by_cases hflat : v.entries? = none ∨ w.entries? = none
    · rw [looselyEqual_of_flat hflat, compare_of_flat hflat, looselyEqualFlat_eq_compareFlat]
    · rw [not_or, ← ne_eq, ← ne_eq, Option.ne_none_iff_exists', Option.ne_none_iff_exists'] at hflat
      obtain ⟨⟨entries, hv⟩, others, hw⟩ := hflat
      rw [looselyEqual_of_entries hv hw, compare_of_entries hv hw, then_beq_eq, compareNat_beq_eq,
        looselyEqualEntries_eq_compareEntries (ih entries hv)]

/-! ## Distinct keys -/

/-- No array in the value, at any depth, has two entries of one key. -/
def HasDistinctKeys (v : Value) : Prop :=
  v.Within fun
    | .mapping _ entries => DistinctKeys entries
    | _ => True

theorem distinctKeys_indexed (start : Nat) (items : List Value) :
    DistinctKeys (indexed start items) := by
  have hlater : ∀ (items : List Value) (n : Nat), ∀ entry ∈ indexed n items,
      ∃ position, entry.1 = .int position ∧ (n : Int) ≤ position := by
    intro items
    induction items with
    | nil => exact fun n entry h => nomatch h
    | cons v rest ih =>
      intro n entry h
      rcases List.mem_cons.1 h with rfl | h
      · exact ⟨n, rfl, Int.le_refl _⟩
      · obtain ⟨position, hkey, hle⟩ := ih (n + 1) entry h
        exact ⟨position, hkey, by omega⟩
  induction items generalizing start with
  | nil => exact List.Pairwise.nil
  | cons v rest ih =>
    refine List.pairwise_cons.2 ⟨fun entry hentry => ?_, ih (start + 1)⟩
    obtain ⟨position, hkey, hle⟩ := hlater rest (start + 1) entry hentry
    rw [hkey, Key.int_beq_int, beq_eq_false_iff_ne]
    omega

section
variable {v w : Value} {entries others : List (Key × Value)}

theorem HasDistinctKeys.distinct (h : v.HasDistinctKeys) (hv : v.entries? = some entries) :
    DistinctKeys entries := by
  match v with
  | .sequence o items =>
    cases hv
    exact distinctKeys_indexed 0 items
  | .mapping o es =>
    cases hv
    exact h (.mapping o entries) List.mem_cons_self
  | .null | .bool _ | .number _ | .text _ | .object .. => exact nomatch hv

theorem HasDistinctKeys.value (h : v.HasDistinctKeys) (hv : v.entries? = some entries)
    {entry : Key × Value} (hentry : entry ∈ entries) : entry.2.HasDistinctKeys := by
  have hloop : v.loopEntries? = some entries := by
    cases v with
    | object => exact nomatch hv
    | _ => exact hv
  exact h.of_subset (containers_loopEntries hloop hentry)

/-! ## A value equals itself -/

theorem looselyEqualFlat_self (v : Value) (h : v.entries? = none) :
    v.looselyEqualFlat v = true := by
  cases hv : v.isScalar with
  | true =>
    have hswap := compareFlat_swap hv hv
    rw [looselyEqualFlat_eq_compareFlat, beq_iff_eq]
    generalize v.compareFlat v = order at hswap
    cases order with
    | eq => rfl
    | lt | gt => exact nomatch hswap
  | false =>
    match v with
    | .object identity .. => exact beq_self_eq_true identity
    | .sequence .. | .mapping .. => exact nomatch h

theorem looselyEqual_refl (h : v.HasDistinctKeys) : v.looselyEqual v = true := by
  induction v using induction_on_entries with
  | h v ih =>
    cases hv : v.entries? with
    | none =>
      rw [looselyEqual_of_flat (.inl hv)]
      exact looselyEqualFlat_self v hv
    | some entries =>
      rw [looselyEqual_of_entries hv hv, beq_self_eq_true, Bool.true_and, looselyEqualEntries_iff]
      exact fun entry hentry => ⟨entry.2, valueOf?_of_mem (h.distinct hv) hentry,
        ih entries hv entry hentry (h.value hv hentry)⟩

/-! ## The same keys with equal values -/

/-- The keys of a map that are all in another one are at most as many as the keys there. -/
theorem keys_subperm (hentries : DistinctKeys entries)
    (h : ∀ entry ∈ entries, ∃ other ∈ others, other.1 == entry.1) :
    List.Subperm (entries.map (·.1.canonical)) (others.map (·.1.canonical)) := by
  have hnodup : (entries.map (·.1.canonical)).Nodup := by
    refine List.pairwise_map.2 (hentries.imp fun hne heq => ?_)
    exact Bool.eq_false_iff.1 hne (Key.beq_iff_canonical_eq.2 heq)
  refine List.subperm_of_subset hnodup fun key hkey => ?_
  obtain ⟨entry, hentry, rfl⟩ := List.mem_map.1 hkey
  obtain ⟨other, hother, heq⟩ := h entry hentry
  exact List.mem_map.2 ⟨other, hother, Key.beq_iff_canonical_eq.1 heq⟩

theorem length_le_of_keys (hentries : DistinctKeys entries)
    (h : ∀ entry ∈ entries, ∃ other ∈ others, other.1 == entry.1) :
    entries.length ≤ others.length := by
  simpa using (keys_subperm hentries h).length_le

/-- As many keys as the other map has are all the keys there. -/
theorem exists_entry_of_length_eq (hentries : DistinctKeys entries)
    (hlength : entries.length = others.length)
    (h : ∀ entry ∈ entries, ∃ other ∈ others, other.1 == entry.1) :
    ∀ other ∈ others, ∃ entry ∈ entries, entry.1 == other.1 := by
  intro other hother
  have hperm := (keys_subperm hentries h).perm_of_length_le (by simp [hlength])
  have hmem : other.1.canonical ∈ entries.map (·.1.canonical) :=
    hperm.mem_iff.2 (List.mem_map.2 ⟨other, hother, rfl⟩)
  obtain ⟨entry, hentry, heq⟩ := List.mem_map.1 hmem
  exact ⟨entry, hentry, Key.beq_iff_canonical_eq.2 heq⟩

/-- Two maps are related key by key if each entry of the one has its counterpart in the other, and
    the other has no more keys. -/
theorem forall_rel_valueOf?_iff {R : Value → Value → Prop} (hentries : DistinctKeys entries)
    (hothers : DistinctKeys others) :
    (∀ key, Option.Rel R (valueOf? key entries) (valueOf? key others))
      ↔ (∀ entry ∈ entries, ∃ b, valueOf? entry.1 others = some b ∧ R entry.2 b)
        ∧ ∀ other ∈ others, ∃ entry ∈ entries, entry.1 == other.1 := by
  constructor
  · intro h
    constructor
    · intro entry hentry
      have hrel := h entry.1
      rw [valueOf?_of_mem hentries hentry] at hrel
      generalize valueOf? entry.1 others = found at hrel ⊢
      cases hrel with
      | some hr => exact ⟨_, rfl, hr⟩
    · intro other hother
      have hrel := h other.1
      rw [valueOf?_of_mem hothers hother] at hrel
      generalize hfound : valueOf? other.1 entries = found at hrel
      cases hrel with
      | some hr =>
        obtain ⟨entry, hentry, -, hkey⟩ := mem_of_valueOf? hfound
        exact ⟨entry, hentry, hkey⟩
  · rintro ⟨hvalues, hkeys⟩ key
    cases hleft : valueOf? key entries with
    | some a =>
      obtain ⟨entry, hentry, rfl, hkey⟩ := mem_of_valueOf? hleft
      obtain ⟨b, hright, hr⟩ := hvalues entry hentry
      rw [← valueOf?_congr hkey, hright]
      exact .some hr
    | none =>
      cases hright : valueOf? key others with
      | none => exact .none
      | some b =>
        -- the key of such an entry would be on the left side, too
        obtain ⟨other, hother, -, hkey⟩ := mem_of_valueOf? hright
        obtain ⟨entry, hentry, hkey'⟩ := hkeys other hother
        rw [← valueOf?_congr hkey, ← valueOf?_congr hkey', valueOf?_of_mem hentries hentry] at hleft
        cases hleft

/-- Arrays are equal if and only if they have the same keys, in any order, with equal values. -/
theorem looselyEqual_iff_of_entries (hv : v.HasDistinctKeys) (hw : w.HasDistinctKeys)
    (hentries : v.entries? = some entries) (hothers : w.entries? = some others) :
    v.looselyEqual w ↔ ∀ key, Option.Rel (fun a b => a.looselyEqual b = true)
      (valueOf? key entries) (valueOf? key others) := by
  have hv' := hv.distinct hentries
  have hw' := hw.distinct hothers
  rw [forall_rel_valueOf?_iff hv' hw', looselyEqual_of_entries hentries hothers, Bool.and_eq_true,
    beq_iff_eq, looselyEqualEntries_iff, and_comm]
  refine and_congr_right fun hvalues => ?_
  have hkeys : ∀ entry ∈ entries, ∃ other ∈ others, other.1 == entry.1 := by
    intro entry hentry
    obtain ⟨b, hb, -⟩ := hvalues entry hentry
    obtain ⟨other, hother, -, hkey⟩ := mem_of_valueOf? hb
    exact ⟨other, hother, hkey⟩
  exact ⟨fun hlength => exists_entry_of_length_eq hv' hlength hkeys,
    fun hback => Nat.le_antisymm (length_le_of_keys hv' hkeys) (length_le_of_keys hw' hback)⟩

/-! ## The sides do not matter -/

theorem looselyEqualFlat_comm (v w : Value) : v.looselyEqualFlat w = w.looselyEqualFlat v := by
  by_cases h : v.isScalar ∧ w.isScalar
  · rw [looselyEqualFlat_eq_compareFlat, looselyEqualFlat_eq_compareFlat, compareFlat_swap h.1 h.2]
    cases w.compareFlat v <;> rfl
  · cases v <;> cases w <;>
      simp [looselyEqualFlat, isContainer, isScalar, eq_comm] at h ⊢

theorem looselyEqual_symm (hv : v.HasDistinctKeys) (hw : w.HasDistinctKeys)
    (h : v.looselyEqual w) : w.looselyEqual v := by
  induction v using induction_on_entries generalizing w with
  | h v ih =>
    by_cases hflat : v.entries? = none ∨ w.entries? = none
    · rw [looselyEqual_of_flat hflat, looselyEqualFlat_comm] at h
      rwa [looselyEqual_of_flat hflat.symm]
    · rw [not_or, ← ne_eq, ← ne_eq, Option.ne_none_iff_exists', Option.ne_none_iff_exists'] at hflat
      obtain ⟨⟨entries, hentries⟩, others, hothers⟩ := hflat
      -- both have entries, and those under the same key are equal by the induction hypothesis
      rw [looselyEqual_iff_of_entries hv hw hentries hothers] at h
      rw [looselyEqual_iff_of_entries hw hv hothers hentries]
      intro key
      have hrel := h key
      generalize hleft : valueOf? key entries = left at hrel ⊢
      generalize hright : valueOf? key others = right at hrel ⊢
      cases hrel with
      | none => exact .none
      | some hequal =>
        obtain ⟨entry, hentry, rfl, -⟩ := mem_of_valueOf? hleft
        obtain ⟨other, hother, rfl, -⟩ := mem_of_valueOf? hright
        exact .some (ih entries hentries entry hentry (hv.value hentries hentry)
          (hw.value hothers hother) hequal)

theorem looselyEqual_comm (hv : v.HasDistinctKeys) (hw : w.HasDistinctKeys) :
    v.looselyEqual w = w.looselyEqual v :=
  Bool.eq_iff_iff.2 ⟨looselyEqual_symm hv hw, looselyEqual_symm hw hv⟩

end

end Value

/-- Equality, the order and the operators that use them: two values are equal if and only if the
    order finds them equal, so that `==` holds where neither `<` nor `>` does and fails where they
    fail; a value equals itself, and two values are equal either way round. -/
theorem looselyEqual_agrees_with_compare (a b : Value) (ha : a.HasDistinctKeys)
    (hb : b.HasDistinctKeys) :
    (a.looselyEqual b = true ↔ a.compare b = .eq)
      ∧ a.looselyEqual a = true
      ∧ a.looselyEqual b = b.looselyEqual a
      ∧ BinaryOperator.equal.apply a b = (do
          let less ← BinaryOperator.less.apply a b
          let greater ← BinaryOperator.greater.apply a b
          return .bool (!less.isTrue && !greater.isTrue)) := by
  have heq := Value.looselyEqual_eq_compare a b
  refine ⟨?_, Value.looselyEqual_refl ha, Value.looselyEqual_comm ha hb, ?_⟩
  · rw [heq, beq_iff_eq]
  · simp only [BinaryOperator.apply, Value.compared, heq]
    split
    · rfl
    · cases a.compare b <;> rfl

/-- A text and a number that count as the same, and what is not a number beside one, in arrays of
    different kinds and orders. -/
theorem looselyEqual_agrees_with_compare_of_arrays :
    let nan : Value := .number (.float .nan)
    let a : Value := .mapping (.host 0)
      [(.text "x", .text " 1.0"), (.text "y", .sequence (.host 1) [nan, .null])]
    let b : Value := .mapping (.host 2)
      [(.text "y", .mapping (.host 3) [(.int 1, .bool false), (.int 0, .int 5)]),
        (.text "x", .int 1)]
    (a.HasDistinctKeys ∧ b.HasDistinctKeys) ∧ a.looselyEqual b = true ∧ a.compare b = .eq := by
  intro nan a b
  have ha : a.HasDistinctKeys := by
    simp [a, nan, Value.HasDistinctKeys, Value.Within, Value.containers, itemsContainers,
      entriesContainers, DistinctKeys]
  have hb : b.HasDistinctKeys := by
    simp [b, Value.HasDistinctKeys, Value.Within, Value.containers, entriesContainers,
      DistinctKeys]
  obtain ⟨hagrees, -, -, -⟩ := looselyEqual_agrees_with_compare a b ha hb
  have hcompare : a.compare b = .eq := by decide +kernel
  exact ⟨⟨ha, hb⟩, hagrees.2 hcompare, hcompare⟩

end BlockTemplate
