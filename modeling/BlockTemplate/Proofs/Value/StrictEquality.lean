import BlockTemplate.Proofs.Value.Equality
import Mathlib

/-!
# Strict equality

Strict equality is an equivalence of the values without what is not a number, and values that are
strictly equal are loosely equal. Two arrays are strictly equal if their entries are, one by one,
and they are of one kind or empty; so a chain of equal arrays that changes its kind is one of empty
ones.

## Key results

- `Number.equals_refl`, `Number.equals_comm`, `Number.equals_trans`: equality of numbers
- `Value.strictlyEqual_iff_of_entries`: arrays, entry by entry
- `Value.strictlyEqual_refl`, `Value.strictlyEqual_symm`, `Value.strictlyEqual_trans`
- `Value.looselyEqual_of_strictlyEqual`
- `strictlyEqual_refines_looselyEqual`: all of it
-/

namespace BlockTemplate

/-! ## Numbers -/

namespace Binary64

/-- In a finer unit a number has a multiple of its units. -/
theorem scaled_of_le (n : Bool) (m : Nat) {e fine coarse : Int} (hfine : fine ≤ coarse)
    (hcoarse : coarse ≤ e) :
    scaled n m e fine = scaled n m e coarse * 2 ^ (coarse - fine).toNat := by
  have hshift : (e - fine).toNat = (e - coarse).toNat + (coarse - fine).toNat := by omega
  have hunits : Int.ofNat (m * Nat.pow 2 (e - fine).toNat)
      = Int.ofNat (m * Nat.pow 2 (e - coarse).toNat) * 2 ^ (coarse - fine).toNat := by
    simp only [Nat.pow_eq, hshift, Nat.pow_add, Int.ofNat_eq_natCast, ← Nat.mul_assoc]
    push_cast
    rfl
  unfold scaled
  cases n with
  | false => exact hunits
  | true =>
    simp only [if_true, hunits]
    exact (Int.neg_mul _ _).symm

/-- Finite numbers are equal if and only if they have as many units, in any unit that is fine
    enough for both. -/
theorem compare?_finite_eq_iff {n n' : Bool} {m m' : Nat} {e e' scale : Int} (h : scale ≤ e)
    (h' : scale ≤ e') :
    (finite n m e).compare? (finite n' m' e') = some .eq
      ↔ scaled n m e scale = scaled n' m' e' scale := by
  have hmin : scale ≤ min e e' := by omega
  have hpos : (2 : Int) ^ (min e e' - scale).toNat ≠ 0 := Int.pow_ne_zero (by decide)
  rw [compare?, scaled_of_le n m hmin (Int.min_le_left e e'),
    scaled_of_le n' m' hmin (Int.min_le_right e e'), Int.mul_eq_mul_right_iff hpos]
  exact Option.some_inj.trans Std.LawfulEqCmp.compare_eq_iff_eq

theorem compare?_self {x : Binary64} (h : x ≠ .nan) : x.compare? x = some .eq := by
  cases x with
  | nan => exact absurd rfl h
  | infinity a => exact congrArg some (Nat.compare_eq_eq.2 rfl)
  | finite n m e => exact (compare?_finite_eq_iff (Int.le_refl e) (Int.le_refl e)).2 rfl

theorem compare?_eq_trans {x y z : Binary64} (h : x.compare? y = some .eq)
    (h' : y.compare? z = some .eq) : x.compare? z = some .eq := by
  cases x with
  | nan => exact nomatch h
  | infinity a =>
    cases y with
    | nan => exact nomatch h
    | finite n m e => cases a <;> exact nomatch h
    | infinity b =>
      have hab : a = b := by
        revert h
        cases a <;> cases b <;> decide
      rw [hab]
      exact h'
  | finite n m e =>
    cases y with
    | nan => exact nomatch h
    | infinity b => cases b <;> exact nomatch h
    | finite n' m' e' =>
      cases z with
      | nan => exact nomatch h'
      | infinity c => cases c <;> exact nomatch h'
      | finite n'' m'' e'' =>
        -- one unit that is fine enough for all three
        have hx : min e (min e' e'') ≤ e := by omega
        have hy : min e (min e' e'') ≤ e' := by omega
        have hz : min e (min e' e'') ≤ e'' := by omega
        rw [compare?_finite_eq_iff hx hy] at h
        rw [compare?_finite_eq_iff hy hz] at h'
        rw [compare?_finite_eq_iff hx hz]
        exact h.trans h'

end Binary64

namespace Number

/-- Whether a number is the double-precision one that is none. -/
def isNaN : Number → Bool
  | .float .nan => true
  | _ => false

theorem equals_iff {a b : Number} : a.equals b = true ↔ a.exact.compare? b.exact = some .eq := by
  rw [equals, compare?, beq_iff_eq]

theorem equals_refl {a : Number} (h : a.isNaN = false) : a.equals a = true := by
  rw [equals_iff]
  apply Binary64.compare?_self
  intro hnan
  cases a with
  | int n => exact nomatch hnan
  | float x =>
    have hx : x = .nan := hnan
    rw [hx] at h
    exact nomatch h

theorem equals_comm (a b : Number) : a.equals b = b.equals a := by
  rw [equals, equals, compare?, compare?, Binary64.compare?_swap]
  cases b.exact.compare? a.exact with
  | none => rfl
  | some order => cases order <;> rfl

theorem equals_trans {a b c : Number} (h : a.equals b = true) (h' : b.equals c = true) :
    a.equals c = true :=
  equals_iff.2 (Binary64.compare?_eq_trans (equals_iff.1 h) (equals_iff.1 h'))

/-- Equal numbers are not ordered. -/
theorem compare_of_equals {a b : Number} (h : a.equals b = true) : a.compare b = .eq := by
  rw [compare, compare?, equals_iff.1 h]
  rfl

end Number

namespace Value

theorem strictlyEqualNumber_refl {a : Number} (h : a.isNaN = false) :
    strictlyEqualNumber a a = true := by
  cases a with
  | int n => exact beq_self_eq_true n
  | float x => exact Number.equals_refl h

theorem strictlyEqualNumber_comm (a b : Number) :
    strictlyEqualNumber a b = strictlyEqualNumber b a := by
  cases a with
  | int m =>
    cases b with
    | int n => exact Bool.beq_comm
    | float y => rfl
  | float x =>
    cases b with
    | int n => rfl
    | float y => exact Number.equals_comm _ _

theorem strictlyEqualNumber_trans {a b c : Number} (h : strictlyEqualNumber a b = true)
    (h' : strictlyEqualNumber b c = true) : strictlyEqualNumber a c = true := by
  cases a with
  | int m =>
    cases b with
    | int n =>
      have hmn : m = n := eq_of_beq h
      rw [hmn]
      exact h'
    | float y => exact nomatch h
  | float x =>
    cases b with
    | int n => exact nomatch h
    | float y =>
      cases c with
      | int n => exact nomatch h'
      | float z => exact Number.equals_trans h h'

/-- Integers are equal as numbers if they are the same. -/
theorem compare_of_strictlyEqualNumber {a b : Number} (h : strictlyEqualNumber a b = true) :
    a.compare b = .eq := by
  apply Number.compare_of_equals
  cases a with
  | int m =>
    cases b with
    | int n =>
      have hmn : m = n := eq_of_beq h
      rw [hmn]
      exact Number.equals_refl rfl
    | float y => exact nomatch h
  | float x =>
    cases b with
    | int n => exact nomatch h
    | float y => exact h

/-! ## Entries of arrays -/

/-- Whether two entries have one key and strictly equal values. -/
def SameEntry (a b : Key × Value) : Prop := (a.1 == b.1) = true ∧ a.2.strictlyEqual b.2 = true

section
variable {u v w : Value} {entries others : List (Key × Value)}

theorem strictlyEqualEntries_iff :
    strictlyEqualEntries entries others = true ↔ List.Forall₂ SameEntry entries others := by
  induction entries generalizing others with
  | nil => cases others <;> simp [strictlyEqualEntries]
  | cons entry rest ih =>
    cases others with
    | nil => simp [strictlyEqualEntries]
    | cons other others =>
      simp only [strictlyEqualEntries, Bool.and_eq_true, ih, List.forall₂_cons, SameEntry]

theorem strictlyEqualItems_iff (start : Nat) {items others : List Value} :
    strictlyEqualItems items others = true
      ↔ List.Forall₂ SameEntry (indexed start items) (indexed start others) := by
  induction items generalizing start others with
  | nil => cases others <;> simp [strictlyEqualItems, indexed]
  | cons v rest ih =>
    cases others with
    | nil => simp [strictlyEqualItems, indexed]
    | cons w others =>
      simp only [strictlyEqualItems, Bool.and_eq_true, ih (start + 1), indexed, List.forall₂_cons,
        SameEntry, beq_self_eq_true, true_and]

/-- Arrays are strictly equal if their entries are, one by one, and they are of one kind or
    empty. -/
theorem strictlyEqual_iff_of_entries (hv : v.entries? = some entries)
    (hw : w.entries? = some others) :
    v.strictlyEqual w = true
      ↔ (v.isMapping = w.isMapping ∨ entries = []) ∧ List.Forall₂ SameEntry entries others := by
  -- a list and a mapping are equal only if both are empty
  cases v with
  | sequence o items =>
    cases hv
    cases w with
    | sequence o' items' =>
      cases hw
      rw [strictlyEqual, strictlyEqualItems_iff 0]
      exact (and_iff_right (.inl rfl)).symm
    | mapping o' es' =>
      cases hw
      cases items <;> cases others <;> simp [strictlyEqual, bothEmpty, isMapping, indexed]
    | _ => cases hw
  | mapping o es =>
    cases hv
    cases w with
    | sequence o' items' =>
      cases hw
      cases items' <;> cases entries <;> simp [strictlyEqual, bothEmpty, isMapping, indexed]
    | mapping o' es' =>
      cases hw
      rw [strictlyEqual, strictlyEqualEntries_iff]
      exact (and_iff_right (.inl rfl)).symm
    | _ => cases hw
  | _ => cases hv

/-- Nothing but an array is strictly equal to an array. -/
theorem entries?_eq_none_of_strictlyEqual (h : v.strictlyEqual w = true)
    (hv : v.entries? = none) : w.entries? = none := by
  cases w with
  | sequence o items => cases v <;> simp [strictlyEqual, entries?] at h hv
  | mapping o es => cases v <;> simp [strictlyEqual, entries?] at h hv
  | _ => rfl

end

/-! ## An equivalence -/

/-- Whether there is nothing in a value that is not a number, be it a value or a key. Objects count
    by their identity, whatever their attributes are. -/
inductive IsNaNFree : Value → Prop where
  | intro {v : Value} (hvalue : ∀ n, v = .number n → n.isNaN = false)
    (hkeys : ∀ entries, v.entries? = some entries → ∀ entry ∈ entries, entry.1 ≠ .real .nan)
    (hentries : ∀ entries, v.entries? = some entries → ∀ entry ∈ entries, IsNaNFree entry.2) :
    IsNaNFree v

section
variable {u v w : Value} {entries others : List (Key × Value)}

theorem strictlyEqual_refl (h : v.IsNaNFree) : v.strictlyEqual v = true := by
  induction h with
  | @intro v hvalue hkeys hentries ih =>
    cases hv : v.entries? with
    | some entries =>
      rw [strictlyEqual_iff_of_entries hv hv]
      constructor
      · exact .inl rfl
      · rw [List.forall₂_same]
        intro entry hentry
        exact ⟨beq_self_eq_true entry.1, ih entries hv entry hentry⟩
    | none =>
      cases v with
      | null => rfl
      | bool b => exact beq_self_eq_true b
      | number n => exact strictlyEqualNumber_refl (hvalue n rfl)
      | text s => exact beq_self_eq_true s
      | object identity => exact beq_self_eq_true identity
      | sequence o items => exact nomatch hv
      | mapping o es => exact nomatch hv

/-- Strict equality of values that are no arrays does not depend on the side. -/
theorem strictlyEqual_comm_of_flat (hv : v.entries? = none) :
    v.strictlyEqual w = w.strictlyEqual v := by
  cases v with
  | null => cases w <;> rfl
  | bool a =>
    cases w with
    | bool b => exact Bool.beq_comm
    | _ => rfl
  | number a =>
    cases w with
    | number b => exact strictlyEqualNumber_comm a b
    | _ => rfl
  | text s =>
    cases w with
    | text t => exact Bool.beq_comm
    | _ => rfl
  | object a =>
    cases w with
    | object b => exact Bool.beq_comm
    | _ => rfl
  | sequence o items => exact nomatch hv
  | mapping o es => exact nomatch hv

/-- An array is strictly equal to arrays only. -/
theorem exists_entries_of_strictlyEqual (h : v.strictlyEqual w = true)
    (hv : v.entries? = some entries) : ∃ others, w.entries? = some others := by
  cases hw : w.entries? with
  | some others => exact ⟨others, rfl⟩
  | none =>
    rw [← strictlyEqual_comm_of_flat hw] at h
    rw [entries?_eq_none_of_strictlyEqual h hw] at hv
    exact nomatch hv

theorem strictlyEqual_symm (h : v.strictlyEqual w = true) : w.strictlyEqual v = true := by
  induction v using induction_on_entries generalizing w with
  | h v ih =>
    cases hv : v.entries? with
    | none => rwa [← strictlyEqual_comm_of_flat hv]
    | some entries =>
      obtain ⟨others, hw⟩ := exists_entries_of_strictlyEqual h hv
      obtain ⟨hkind, hsame⟩ := (strictlyEqual_iff_of_entries hv hw).1 h
      rw [strictlyEqual_iff_of_entries hw hv]
      constructor
      · -- where the left side is empty the right one is, too
        rcases hkind with hkind | rfl
        · exact .inl hkind.symm
        · exact .inr (List.forall₂_nil_left_iff.1 hsame)
      · have hback : List.Forall₂ (fun a b => SameEntry b a) entries others := by
          -- the induction hypothesis is about the entries of the left side
          have hmem := (List.forall₂_and_left _ _).2 ⟨ih entries hv, hsame⟩
          apply hmem.imp
          intro a b ⟨hvalue, hkey, hequal⟩
          exact ⟨BEq.symm hkey, hvalue hequal⟩
        exact hback.flip

theorem exists_of_mem_forall₂ {α : Type} {R : α → α → Prop} {first second : List α}
    (h : List.Forall₂ R first second) {a : α} (ha : a ∈ first) : ∃ b ∈ second, R a b := by
  induction h with
  | nil => exact nomatch ha
  | cons hab _ ih =>
    rcases List.mem_cons.1 ha with rfl | ha
    · exact ⟨_, List.mem_cons_self, hab⟩
    · obtain ⟨b, hb, hab⟩ := ih ha
      exact ⟨b, List.mem_cons_of_mem _ hb, hab⟩

/-- A relation that can be continued from the items of a list can be continued from the list. -/
theorem forall₂_trans_of_mem {α : Type} {R : α → α → Prop} {first second third : List α}
    (h : ∀ a ∈ first, ∀ b c, R a b → R b c → R a c) (hleft : List.Forall₂ R first second)
    (hright : List.Forall₂ R second third) : List.Forall₂ R first third := by
  induction hleft generalizing third with
  | nil => exact hright
  | cons hab _ ih =>
    cases hright with
    | cons hbc hright =>
      apply List.Forall₂.cons
      · exact h _ List.mem_cons_self _ _ hab hbc
      · apply ih _ hright
        intro a ha
        exact h a (List.mem_cons_of_mem _ ha)

/-- What is strictly equal to a value that is no array is the value itself, an equal number, or the
    same object. -/
theorem strictlyEqual_flat_cases (hv : v.entries? = none) (h : v.strictlyEqual w = true) :
    v = w
      ∨ (∃ a b, v = .number a ∧ w = .number b ∧ strictlyEqualNumber a b = true)
      ∨ ∃ identity name name' attributes attributes' items items',
        v = .object identity name attributes items
          ∧ w = .object identity name' attributes' items' := by
  cases v with
  | null =>
    cases w with
    | null => exact .inl rfl
    | _ => simp [strictlyEqual] at h
  | bool a =>
    cases w with
    | bool b => exact .inl (congrArg Value.bool (eq_of_beq h))
    | _ => simp [strictlyEqual] at h
  | number a =>
    cases w with
    | number b => exact .inr (.inl ⟨a, b, rfl, rfl, h⟩)
    | _ => simp [strictlyEqual] at h
  | text s =>
    cases w with
    | text t => exact .inl (congrArg Value.text (eq_of_beq h))
    | _ => simp [strictlyEqual] at h
  | object a =>
    cases w with
    | object b =>
      have hab : a = b := eq_of_beq h
      subst hab
      exact .inr (.inr ⟨a, _, _, _, _, _, _, rfl, rfl⟩)
    | _ => simp [strictlyEqual] at h
  | sequence o items => exact nomatch hv
  | mapping o es => exact nomatch hv

theorem strictlyEqual_trans_of_flat (hv : v.entries? = none) (h : v.strictlyEqual w = true)
    (h' : w.strictlyEqual u = true) : v.strictlyEqual u = true := by
  obtain rfl | ⟨a, b, rfl, rfl, hab⟩ | ⟨_, _, _, _, _, _, _, rfl, rfl⟩ :=
    strictlyEqual_flat_cases hv h
  · exact h'
  · cases u with
    | number c => exact strictlyEqualNumber_trans hab h'
    | _ => simp [strictlyEqual] at h'
  · -- an object is equal to what has its identity
    cases u <;> exact h'

theorem strictlyEqual_trans (h : v.strictlyEqual w = true) (h' : w.strictlyEqual u = true) :
    v.strictlyEqual u = true := by
  -- on the values in the entries of the first one; those of the others stand at the same places
  induction v using induction_on_entries generalizing w u with
  | h v ih =>
    cases hv : v.entries? with
    | none => exact strictlyEqual_trans_of_flat hv h h'
    | some entries =>
      obtain ⟨others, hw⟩ := exists_entries_of_strictlyEqual h hv
      obtain ⟨further, hu⟩ := exists_entries_of_strictlyEqual h' hw
      obtain ⟨hkind, hsame⟩ := (strictlyEqual_iff_of_entries hv hw).1 h
      obtain ⟨hkind', hsame'⟩ := (strictlyEqual_iff_of_entries hw hu).1 h'
      rw [strictlyEqual_iff_of_entries hv hu]
      constructor
      · -- a change of the kind on either way leaves nothing but empty arrays
        rcases hkind with hkind | hempty
        · rcases hkind' with hkind' | rfl
          · exact .inl (hkind.trans hkind')
          · exact .inr (List.forall₂_nil_right_iff.1 hsame)
        · exact .inr hempty
      · apply forall₂_trans_of_mem _ hsame hsame'
        intro a ha b c hab hbc
        exact ⟨BEq.trans hab.1 hbc.1, ih entries hv a ha hab.2 hbc.2⟩

/-! ## Strictly equal values are loosely equal -/

theorem looselyEqualFlat_of_strictlyEqual (hv : v.entries? = none)
    (h : v.strictlyEqual w = true) : v.looselyEqualFlat w = true := by
  obtain rfl | ⟨a, b, rfl, rfl, hab⟩ | ⟨identity, _, _, _, _, _, _, rfl, rfl⟩ :=
    strictlyEqual_flat_cases hv h
  · exact looselyEqualFlat_self v hv
  · rw [looselyEqualFlat_eq_compareFlat, beq_iff_eq]
    exact compare_of_strictlyEqualNumber hab
  · exact beq_self_eq_true identity

/-- Values that are strictly equal are loosely equal. No key stands twice on the right side, so
    that the entry at the same place is the one that is found by its key. -/
theorem looselyEqual_of_strictlyEqual (hw : w.HasDistinctKeys) (h : v.strictlyEqual w = true) :
    v.looselyEqual w = true := by
  induction v using induction_on_entries generalizing w with
  | h v ih =>
    cases hv : v.entries? with
    | none =>
      rw [looselyEqual_of_flat (.inl hv)]
      exact looselyEqualFlat_of_strictlyEqual hv h
    | some entries =>
      obtain ⟨others, hothers⟩ := exists_entries_of_strictlyEqual h hv
      obtain ⟨-, hsame⟩ := (strictlyEqual_iff_of_entries hv hothers).1 h
      rw [looselyEqual_of_entries hv hothers, hsame.length_eq, beq_self_eq_true, Bool.true_and,
        looselyEqualEntries_iff]
      intro entry hentry
      obtain ⟨other, hother, hkey, hequal⟩ := exists_of_mem_forall₂ hsame hentry
      have hfound : valueOf? entry.1 others = some other.2 := by
        rw [valueOf?_congr hkey]
        exact valueOf?_of_mem (hw.distinct hothers) hother
      exact ⟨other.2, hfound, ih entries hv entry hentry (hw.value hothers hother) hequal⟩

/-- What is strictly equal is compared without writing a number. -/
theorem needsUnwritable_of_strictlyEqual (h : v.strictlyEqual w = true) :
    v.needsUnwritable w = false := by
  cases v with
  | number a =>
    cases w with
    | number b => rfl
    | _ => simp [strictlyEqual] at h
  | text s =>
    cases w with
    | text t => rfl
    | _ => simp [strictlyEqual] at h
  | _ => rfl

end

end Value

/-- Strict equality is an equivalence of the values that contain nothing that is not a number, and
    values that are strictly equal are loosely equal and not ordered, so that `==` holds where `===`
    does. -/
theorem strictlyEqual_refines_looselyEqual :
    Equivalence (fun a b : { v : Value // v.IsNaNFree } => a.val.strictlyEqual b.val = true)
      ∧ ∀ a b : Value, b.HasDistinctKeys → a.strictlyEqual b = true →
        a.looselyEqual b = true ∧ a.compare b = .eq
          ∧ BinaryOperator.equal.apply a b = .ok (.bool true) := by
  constructor
  · exact ⟨fun a => Value.strictlyEqual_refl a.property, Value.strictlyEqual_symm,
      Value.strictlyEqual_trans⟩
  · intro a b hb h
    have hequal := Value.looselyEqual_of_strictlyEqual hb h
    refine ⟨hequal, ?_, ?_⟩
    · rwa [Value.looselyEqual_eq_compare, beq_iff_eq] at hequal
    · simp only [BinaryOperator.apply, Value.compared, Value.needsUnwritable_of_strictlyEqual h,
        hequal, Bool.false_eq_true, if_false]

/-- Three mappings with an empty array of either kind, and a zero of either sign. -/
theorem strictlyEqual_refines_looselyEqual_of_empty :
    let value (inner : Value) (negative : Bool) : Value := .mapping (.host 0)
      [(.int 1, inner), (.text "n", .number (.float (.finite negative 0 0)))]
    let a := value (.sequence (.host 1) []) false
    let b := value (.mapping (.host 2) []) true
    let c := value (.sequence (.host 3) []) true
    (a.IsNaNFree ∧ b.IsNaNFree ∧ c.IsNaNFree) ∧ c.HasDistinctKeys
      ∧ a.strictlyEqual c = true ∧ a.compare c = .eq := by
  intro value a b c
  have hvalue {inner : Value} (hinner : inner.IsNaNFree) (negative : Bool) :
      (value inner negative).IsNaNFree := by
    have hzero : (Value.number (.float (.finite negative 0 0))).IsNaNFree :=
      .intro (by rintro n ⟨⟩; rfl) (fun _ h => nomatch h) (fun _ h => nomatch h)
    refine .intro (fun _ h => nomatch h) ?_ ?_
    · rintro _ ⟨⟩
      simp [Ne]
    · rintro _ ⟨⟩
      simp only [List.forall_mem_cons]
      exact ⟨hinner, hzero, List.forall_mem_nil _⟩
  have hsequence (o : Origin) : (Value.sequence o []).IsNaNFree :=
    .intro (fun _ h => nomatch h) (by rintro _ ⟨⟩ _ ⟨⟩) (by rintro _ ⟨⟩ _ ⟨⟩)
  have hmapping (o : Origin) : (Value.mapping o []).IsNaNFree :=
    .intro (fun _ h => nomatch h) (by rintro _ ⟨⟩ _ ⟨⟩) (by rintro _ ⟨⟩ _ ⟨⟩)
  have ha : a.IsNaNFree := hvalue (hsequence _) false
  have hb : b.IsNaNFree := hvalue (hmapping _) true
  have hc : c.IsNaNFree := hvalue (hsequence _) true
  have hkeys : c.HasDistinctKeys := by
    simp [c, value, Value.HasDistinctKeys, Value.Within, Value.containers, itemsContainers,
      entriesContainers, DistinctKeys]
  obtain ⟨hequivalence, hrefines⟩ := strictlyEqual_refines_looselyEqual
  have hab : a.strictlyEqual b = true := by decide +kernel
  have hbc : b.strictlyEqual c = true := by decide +kernel
  have hac : a.strictlyEqual c = true :=
    hequivalence.trans (x := ⟨a, ha⟩) (y := ⟨b, hb⟩) (z := ⟨c, hc⟩) hab hbc
  exact ⟨⟨ha, hb, hc⟩, hkeys, hac, (hrefines a c hkeys hac).2.1⟩

end BlockTemplate
