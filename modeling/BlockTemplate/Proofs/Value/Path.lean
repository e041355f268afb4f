import BlockTemplate.Proofs.Value.Apart
import Mathlib

/-!
# Reading and writing at a path

What is written at a path is read there, and a second write at the path leaves nothing of the first
one. Other paths read what they have read before, as long as the mappings on the way of the write
are those on the way of the reader. They differ in one thing: where a text key is missing the reader
takes the integer key that the text denotes, and the writer creates a new mapping, which hides the
one under the integer.

## Key results

- `getPath_setPathIn`, `setPathIn_setPathIn`: reading and writing where something has been written
- `getPath_setPathIn_of_empty`: nothing else is found in a mapping that has been created
- `getPath_setPathIn_eq_or_null`, `getPath_setPathIn_of_apart`: the paths beside a write
- `getPath_setPath_of_apart`: the same of a value
- `getPath_setPath_ne_of_hidden`: a mapping that is hidden
-/

namespace BlockTemplate

/-! ## The mapping that a write goes on with -/

/-- The mapping that a write goes on with behind a key: the one that is there, or a new one. -/
def wayAt (fresh : Nat) (key : String) (entries : List (Key × Value)) :
    Origin × List (Key × Value) :=
  ((valueOf? (.text key) entries).bind Value.writableEntries?).getD (.assigned fresh, [])

section
variable {fresh : Nat} {key : String} {entries inner : List (Key × Value)} {o : Origin}
  {value v w : Value}

theorem setPathIn_cons (fresh : Nat) (value : Value) (key next : String) (keys : List String)
    (entries : List (Key × Value)) :
    setPathIn fresh value key (next :: keys) entries
      = upsert (.text key) (.mapping (wayAt fresh key entries).1
          (setPathIn (fresh + 1) value next keys (wayAt fresh key entries).2)) entries := rfl

theorem writableEntries?_mapping (h : o ≠ .globals) :
    (Value.mapping o inner).writableEntries? = some (o, inner) := by
  cases o with
  | globals => exact absurd rfl h
  | _ => rfl

theorem ne_globals_of_writableEntries? (h : v.writableEntries? = some (o, inner)) :
    o ≠ .globals := by
  rintro rfl
  rw [eq_mapping_of_writableEntries? h] at h
  exact nomatch h

/-- The globals are no mapping to go on with. -/
theorem wayAt_ne_globals (fresh : Nat) (key : String) (entries : List (Key × Value)) :
    (wayAt fresh key entries).1 ≠ .globals := by
  unfold wayAt
  cases hway : (valueOf? (.text key) entries).bind Value.writableEntries? with
  | none => exact nofun
  | some way =>
    obtain ⟨found, -, hwritable⟩ := Option.bind_eq_some_iff.1 hway
    exact ne_globals_of_writableEntries? hwritable

theorem wayAt_of_writable
    (h : (valueOf? (.text key) entries).bind Value.writableEntries? = some (o, inner)) :
    wayAt fresh key entries = (o, inner) := by
  rw [wayAt, h, Option.getD_some]

theorem wayAt_of_created
    (h : (valueOf? (.text key) entries).bind Value.writableEntries? = none) :
    wayAt fresh key entries = (.assigned fresh, []) := by
  rw [wayAt, h, Option.getD_none]

theorem wayAt_of_mapping (h : valueOf? (.text key) entries = some (.mapping o inner))
    (ho : o ≠ .globals) : wayAt fresh key entries = (o, inner) := by
  apply wayAt_of_writable
  rw [h, Option.bind_some, writableEntries?_mapping ho]

/-- A write goes on with the mapping that another write has put behind the key. -/
theorem wayAt_upsert (ho : o ≠ .globals) :
    wayAt fresh key (upsert (.text key) (.mapping o inner) entries) = (o, inner) :=
  wayAt_of_mapping (valueOf?_upsert_self _ _ _) ho

/-! ## Steps of a reader -/

theorem item_of_text (h : valueOf? (.text key) entries = some v) :
    (Value.mapping o entries).item key = .ok v := by
  rw [Value.item, entryAt?, h]
  rfl

theorem getPath_cons (key : String) (keys : List String) (v : Value) :
    v.getPath (key :: keys) = (do (← v.item key).getPath keys) := rfl

theorem getPath_singleton (key : String) (v : Value) : v.getPath [key] = v.item key := by
  rw [getPath_cons]
  cases v.item key <;> rfl

theorem getPath_of_text (h : valueOf? (.text key) entries = some v) (path : List String) :
    (Value.mapping o entries).getPath (key :: path) = v.getPath path := by
  rw [getPath_cons, item_of_text h, ok_bind]

/-- Nothing is found in nothing. -/
theorem getPath_null (path : List String) : Value.null.getPath path = .ok .null := by
  induction path with
  | nil => rfl
  | cons key path ih =>
    have hitem : Value.null.item key = .ok .null := rfl
    rw [getPath_cons, hitem, ok_bind, ih]

/-- A text key is none of the other keys of a mapping, and no integer. -/
theorem item_upsert_of_ne {other : String} (h : key ≠ other) :
    (Value.mapping o (upsert (.text key) w entries)).item other
      = (Value.mapping o entries).item other := by
  have htext : valueOf? (Key.text other) (upsert (.text key) w entries)
      = valueOf? (.text other) entries := by
    apply valueOf?_upsert_of_ne
    rw [Key.text_beq_text, beq_eq_false_iff_ne]
    exact h
  have hint (n : Nat) : valueOf? (Key.int n) (upsert (.text key) w entries)
      = valueOf? (.int n) entries := valueOf?_upsert_of_ne (Key.text_beq_int key n) w entries
  simp only [Value.item, entryAt?, htext, hint]

theorem getPath_upsert_of_ne {other : String} (h : key ≠ other) (path : List String) :
    (Value.mapping o (upsert (.text key) w entries)).getPath (other :: path)
      = (Value.mapping o entries).getPath (other :: path) := by
  rw [getPath_cons, getPath_cons, item_upsert_of_ne h]

end

/-! ## Reading and writing where something has been written -/

/-- What is written at a path is read there. -/
theorem getPath_setPathIn (fresh : Nat) (value : Value) (key : String) (keys : List String)
    (o : Origin) (entries : List (Key × Value)) :
    (Value.mapping o (setPathIn fresh value key keys entries)).getPath (key :: keys)
      = .ok value := by
  induction keys generalizing fresh key o entries with
  | nil => exact getPath_of_text (valueOf?_upsert_self _ _ _) []
  | cons next keys ih =>
    rw [setPathIn_cons, getPath_of_text (valueOf?_upsert_self _ _ _)]
    exact ih ..

/-- A second write at a path leaves nothing of the first one, whatever numbers the mappings get that
    are created. -/
theorem setPathIn_setPathIn (fresh fresh' : Nat) (v w : Value) (key : String) (keys : List String)
    (entries : List (Key × Value)) :
    setPathIn fresh' w key keys (setPathIn fresh v key keys entries)
      = setPathIn fresh w key keys entries := by
  induction keys generalizing fresh fresh' key entries with
  | nil => exact upsert_upsert_self _ _ _ _
  | cons next keys ih =>
    -- the second write goes on with the mapping that the first one has left
    rw [setPathIn_cons, setPathIn_cons, setPathIn_cons, wayAt_upsert (wayAt_ne_globals _ _ _),
      upsert_upsert_self, ih]

/-! ## Keys that can be looked up -/

/-- Whether a key can be looked up: if it is a position, it has no more digits than are read. -/
def IsReadableKey (key : String) : Prop :=
  ∀ digits, positionDigits? key = some digits → digits.length ≤ mostDigits

theorem exists_position? {key : String} (h : IsReadableKey key) :
    ∃ position, position? key = .ok position := by
  rw [position?]
  cases hdigits : positionDigits? key with
  | none => exact ⟨none, rfl⟩
  | some digits =>
    have hle : ¬ mostDigits < digits.length := Nat.not_lt.2 (h digits hdigits)
    exact ⟨some (digitsValue digits), if_neg hle⟩

theorem item_of_empty {key : String} (h : IsReadableKey key) (o : Origin) :
    (Value.mapping o []).item key = .ok .null := by
  obtain ⟨position, hposition⟩ := exists_position? h
  rw [Value.item, entryAt?, hposition]
  cases position <;> rfl

/-! ## Paths beside a write -/

section
variable {key : String} {keys path : List String}

/-- A path beside another one leaves it at its first key, or goes on beside the rest of it. -/
theorem exists_cons_of_apart (h : ¬ path <+: key :: keys) (h' : ¬ key :: keys <+: path) :
    ∃ first rest, path = first :: rest
      ∧ (key ≠ first ∨ key = first ∧ ¬ rest <+: keys ∧ ¬ keys <+: rest) := by
  cases path with
  | nil => exact absurd List.nil_prefix h
  | cons first rest =>
    refine ⟨first, rest, rfl, ?_⟩
    by_cases hkey : key = first
    · subst hkey
      rw [List.cons_prefix_cons, and_iff_right rfl] at h h'
      exact .inr ⟨rfl, h, h'⟩
    · exact .inl hkey

/-- In a mapping that has been created for a write nothing is found beside what is written. -/
theorem getPath_setPathIn_of_empty (fresh : Nat) (value : Value) (o : Origin)
    (h : ¬ path <+: key :: keys) (h' : ¬ key :: keys <+: path)
    (hreadable : ∀ other ∈ path, IsReadableKey other) :
    (Value.mapping o (setPathIn fresh value key keys [])).getPath path = .ok .null := by
  induction keys generalizing fresh key path o with
  | nil =>
    obtain ⟨first, rest, rfl, hfirst | ⟨-, -, hrest⟩⟩ := exists_cons_of_apart h h'
    · have hempty := item_of_empty (hreadable first List.mem_cons_self) o
      rw [setPathIn, getPath_upsert_of_ne hfirst, getPath_cons, hempty, ok_bind]
      exact getPath_null rest
    · exact absurd List.nil_prefix hrest
  | cons next keys ih =>
    obtain ⟨first, rest, rfl, hfirst | ⟨rfl, hrest, hrest'⟩⟩ := exists_cons_of_apart h h'
    · have hempty := item_of_empty (hreadable first List.mem_cons_self) o
      rw [setPathIn_cons, getPath_upsert_of_ne hfirst, getPath_cons, hempty, ok_bind]
      exact getPath_null rest
    · rw [setPathIn_cons, getPath_of_text (valueOf?_upsert_self _ _ _)]
      apply ih _ _ hrest hrest'
      intro other hother
      exact hreadable other (List.mem_cons_of_mem _ hother)

/-- Behind a text key that leads to no mapping a write creates one, which hides what the reader may
    have found under the integer that the key denotes. -/
theorem getPath_setPathIn_of_created {next : String} {entries : List (Key × Value)} (fresh : Nat)
    (value : Value) (o : Origin)
    (hkey : (valueOf? (.text key) entries).bind Value.writableEntries? = none)
    (h : ¬ path <+: next :: keys) (h' : ¬ next :: keys <+: path)
    (hreadable : ∀ other ∈ path, IsReadableKey other) :
    (Value.mapping o (setPathIn fresh value key (next :: keys) entries)).getPath (key :: path)
      = .ok .null := by
  rw [setPathIn_cons, getPath_of_text (valueOf?_upsert_self _ _ _), wayAt_of_created hkey]
  exact getPath_setPathIn_of_empty _ _ _ h h' hreadable

/-- A path beside a write finds what it has found before, or nothing any more. -/
theorem getPath_setPathIn_eq_or_null {entries : List (Key × Value)} (fresh : Nat) (value : Value)
    (o : Origin) (h : ¬ path <+: key :: keys) (h' : ¬ key :: keys <+: path)
    (hreadable : ∀ other ∈ path, IsReadableKey other) :
    (Value.mapping o (setPathIn fresh value key keys entries)).getPath path
        = (Value.mapping o entries).getPath path
      ∨ (Value.mapping o (setPathIn fresh value key keys entries)).getPath path = .ok .null := by
  induction keys generalizing fresh key path o entries with
  | nil =>
    obtain ⟨first, rest, rfl, hfirst | ⟨-, -, hrest⟩⟩ := exists_cons_of_apart h h'
    · exact .inl (getPath_upsert_of_ne hfirst rest)
    · exact absurd List.nil_prefix hrest
  | cons next keys ih =>
    obtain ⟨first, rest, rfl, hfirst | ⟨rfl, hrest, hrest'⟩⟩ := exists_cons_of_apart h h'
    · rw [setPathIn_cons]
      exact .inl (getPath_upsert_of_ne hfirst rest)
    · have hlater : ∀ other ∈ rest, IsReadableKey other := by
        intro other hother
        exact hreadable other (List.mem_cons_of_mem _ hother)
      cases hwritable : (valueOf? (Key.text key) entries).bind Value.writableEntries? with
      | none =>
        -- the write begins anew here, and whatever the reader has found is hidden
        exact .inr (getPath_setPathIn_of_created fresh value o hwritable hrest hrest' hlater)
      | some way =>
        obtain ⟨o', inner⟩ := way
        rw [setPathIn_cons, getPath_of_text (valueOf?_upsert_self _ _ _),
          wayAt_of_writable hwritable, getPath_of_text (valueOf?_of_writable hwritable)]
        exact ih (fresh + 1) o' hrest hrest' hlater

/-- Nothing that is found is no mapping to go on with. -/
theorem writable_of_null {entries : List (Key × Value)} {o : Origin}
    (h : (Value.mapping o entries).item key = .ok .null) :
    (valueOf? (.text key) entries).bind Value.writableEntries? = none := by
  cases hvalue : valueOf? (Key.text key) entries with
  | none => rfl
  | some found =>
    rw [item_of_text hvalue] at h
    cases h
    rfl

/-- A position with too many digits is nothing as long as there is no mapping to look it up in, and
    an error in the mapping that a write has created. -/
theorem getPath_setPathIn_of_unreadable {next other : String} {entries : List (Key × Value)}
    {digits : List Char} (fresh : Nat) (value : Value) (o : Origin)
    (hkey : (Value.mapping o entries).item key = .ok .null) (hnext : next ≠ other)
    (hdigits : positionDigits? other = some digits) (hmost : mostDigits < digits.length) :
    (Value.mapping o entries).getPath [key, other] = .ok .null
      ∧ (Value.mapping o (setPathIn fresh value key (next :: keys) entries)).getPath [key, other]
        = .error (.unreadable digits.length) := by
  have hposition : position? other = .error (.unreadable digits.length) := by
    rw [position?, hdigits]
    exact if_pos hmost
  constructor
  · rw [getPath_cons, hkey, ok_bind, getPath_null]
  · have hitem (w : Value) (origin : Origin) :
        (Value.mapping origin (upsert (.text next) w [])).item other
          = .error (.unreadable digits.length) := by
      rw [item_upsert_of_ne hnext, Value.item, entryAt?, hposition]
      rfl
    rw [setPathIn_cons, getPath_of_text (valueOf?_upsert_self _ _ _),
      wayAt_of_created (writable_of_null hkey), getPath_singleton]
    cases keys <;> exact hitem _ _

end

/-! ## The way of a write -/

/-- The value at the end of a path that goes through mappings by text keys alone. -/
def Value.textPath? : List String → Value → Option Value
  | [], v => some v
  | key :: keys, .mapping _ entries => (valueOf? (.text key) entries).bind (Value.textPath? keys)
  | _ :: _, _ => none

/-- Whether a write through a place leaves what can be read there: there is nothing, or there is a
    mapping that the text keys lead to, and it can be written to. -/
def Value.OpensWay (root : Value) (front : List String) : Prop :=
  root.getPath front = .ok .null
    ∨ ∃ origin entries, origin ≠ .globals ∧ root.textPath? front = some (.mapping origin entries)

section
variable {o o' : Origin} {entries inner : List (Key × Value)} {key : String}
  {keys path front : List String}

theorem textPath?_singleton (o : Origin) (key : String) (entries : List (Key × Value)) :
    (Value.mapping o entries).textPath? [key] = valueOf? (.text key) entries := by
  rw [Value.textPath?]
  cases valueOf? (Key.text key) entries <;> rfl

/-- Behind a key under which a mapping lies the way goes on in that mapping. -/
theorem Value.OpensWay.of_cons (h : (Value.mapping o entries).OpensWay (key :: front))
    (hkey : valueOf? (.text key) entries = some (.mapping o' inner)) :
    (Value.mapping o' inner).OpensWay front := by
  rcases h with h | ⟨origin, found, horigin, h⟩
  · rw [getPath_of_text hkey] at h
    exact .inl h
  · rw [Value.textPath?, hkey, Option.bind_some] at h
    exact .inr ⟨origin, found, horigin, h⟩

/-- A path beside a write finds what it has found before, if as far as both go one way the write
    goes through nothing but mappings that the reader finds under the same keys. -/
theorem getPath_setPathIn_of_apart (fresh : Nat) (value : Value)
    (h : ¬ path <+: key :: keys) (h' : ¬ key :: keys <+: path)
    (hway : ∀ front, front ≠ [] → front <+: key :: keys → front <+: path →
      (Value.mapping o entries).OpensWay front)
    (hreadable : (Value.mapping o entries).getPath path = .ok .null →
      ∀ other ∈ path, IsReadableKey other) :
    (Value.mapping o (setPathIn fresh value key keys entries)).getPath path
      = (Value.mapping o entries).getPath path := by
  induction keys generalizing fresh key path o entries with
  | nil =>
    obtain ⟨first, rest, rfl, hfirst | ⟨-, -, hrest⟩⟩ := exists_cons_of_apart h h'
    · exact getPath_upsert_of_ne hfirst rest
    · exact absurd List.nil_prefix hrest
  | cons next keys ih =>
    obtain ⟨first, rest, rfl, hfirst | ⟨rfl, hrest, hrest'⟩⟩ := exists_cons_of_apart h h'
    · rw [setPathIn_cons]
      exact getPath_upsert_of_ne hfirst rest
    · have hopens := hway [key] (List.cons_ne_nil _ _) ⟨next :: keys, rfl⟩ ⟨rest, rfl⟩
      rcases hopens with hnull | hfound
      · -- the reader has found nothing behind the key, and finds nothing in the new mapping
        rw [getPath_singleton] at hnull
        have hbefore : (Value.mapping o entries).getPath (key :: rest) = .ok .null := by
          rw [getPath_cons, hnull, ok_bind, getPath_null]
        have hlater : ∀ other ∈ rest, IsReadableKey other := by
          intro other hother
          exact hreadable hbefore other (List.mem_cons_of_mem _ hother)
        rw [hbefore]
        exact getPath_setPathIn_of_created _ _ _ (writable_of_null hnull) hrest hrest' hlater
      · -- the reader goes on in the mapping that is written to
        obtain ⟨origin, inner, horigin, hfound⟩ := hfound
        have hvalue : valueOf? (.text key) entries = some (.mapping origin inner) := by
          rw [← textPath?_singleton, hfound]
        rw [getPath_of_text hvalue] at hreadable ⊢
        rw [setPathIn_cons, getPath_of_text (valueOf?_upsert_self _ _ _),
          wayAt_of_mapping hvalue horigin]
        apply ih _ hrest hrest'
        · intro front _ hfront hfront'
          have hlonger : key :: front <+: key :: next :: keys :=
            List.cons_prefix_cons.2 ⟨rfl, hfront⟩
          have hlonger' : key :: front <+: key :: rest := List.cons_prefix_cons.2 ⟨rfl, hfront'⟩
          exact (hway (key :: front) (List.cons_ne_nil _ _) hlonger hlonger').of_cons hvalue
        · intro hnull other hother
          exact hreadable hnull other (List.mem_cons_of_mem _ hother)

end

/-- A dotted assignment leaves other paths alone, wherever the keys that they have in common with it
    lead to nothing or to mappings that lie under these very keys. -/
theorem getPath_setPath_of_apart {root : Value} {keys path : List String} (fresh : Nat) (v : Value)
    (hroot : root.isMapping) (h : ¬ path <+: keys) (h' : ¬ keys <+: path)
    (hway : ∀ front, front ≠ [] → front <+: keys → front <+: path → root.OpensWay front)
    (hreadable : root.getPath path = .ok .null → ∀ key ∈ path, IsReadableKey key) :
    ∃ changed, root.setPath fresh keys v = .ok changed
      ∧ changed.getPath path = root.getPath path := by
  cases keys with
  | nil => exact absurd List.nil_prefix h'
  | cons key keys =>
    cases root with
    | mapping o entries =>
      exact ⟨_, rfl, getPath_setPathIn_of_apart fresh v h h' hway hreadable⟩
    | _ => exact nomatch hroot

/-- An integer key beside the text key that is written to. -/
theorem getPath_setPath_of_apart_of_integer :
    let root : Value := .mapping (.host 0)
      [(.int 1, .mapping (.host 1) [(.text "a", .int 5)]),
        (.text "b", .mapping (.host 2)
          [(.text "1", .mapping (.host 3) []), (.int 1, .int 6), (.int 2, .int 7)])]
    let keys := ["b", "1", "c", "d"]
    let path := ["b", "2"]
    root.OpensWay ["b"]
      ∧ ∃ changed, root.setPath 0 keys (.int 8) = .ok changed
        ∧ changed.getPath path = .ok (.int 7) := by
  intro root keys path
  have hb : root.OpensWay ["b"] := .inr ⟨_, _, by decide, rfl⟩
  have hpath : root.getPath path = .ok (.int 7) := by cbv
  have hway : ∀ front, front ≠ [] → front <+: keys → front <+: path → root.OpensWay front := by
    intro front hne hfront hfront'
    simp only [path, List.prefix_cons_iff, List.prefix_nil] at hfront'
    obtain rfl | ⟨_, rfl, rfl | ⟨_, rfl, rfl⟩⟩ := hfront'
    · exact absurd rfl hne
    · exact hb
    · exact absurd hfront (by decide)
  have hreadable : root.getPath path = .ok .null → ∀ key ∈ path, IsReadableKey key := by
    intro hnull
    rw [hpath] at hnull
    cases hnull
  obtain ⟨changed, hchanged, hsame⟩ := getPath_setPath_of_apart 0 (.int 8) rfl (by decide)
    (by decide) hway hreadable
  exact ⟨hb, changed, hchanged, hsame.trans hpath⟩

/-- A mapping under an integer is read under the text of the integer, but a write to that text
    creates another one, and nothing of the first one is found any more. -/
theorem getPath_setPath_ne_of_hidden :
    let inner : Value := .mapping (.host 1) [(.text "a", .int 5)]
    let root : Value := .mapping (.host 0) [(.int 1, inner)]
    let keys := ["1", "b"]
    let path := ["1", "a"]
    (∀ front, front <+: keys → front ≠ [] → front ≠ keys →
        ∃ found, root.getPath front = .ok found ∧ (found = .null ∨ found.isMapping))
      ∧ (¬ path <+: keys ∧ ¬ keys <+: path)
      ∧ root.getPath path = .ok (.int 5)
      ∧ ∃ changed, root.setPath 0 keys (.int 7) = .ok changed
        ∧ changed.getPath path = .ok .null := by
  intro inner root keys path
  have hfound : root.getPath ["1"] = .ok inner := by cbv
  refine ⟨?_, by decide, by cbv, _, rfl, by cbv⟩
  intro front hfront hne hne'
  simp only [keys, List.prefix_cons_iff, List.prefix_nil] at hfront
  obtain rfl | ⟨_, rfl, rfl | ⟨_, rfl, rfl⟩⟩ := hfront
  · exact absurd rfl hne
  · exact ⟨inner, hfound, .inr rfl⟩
  · exact absurd rfl hne'

end BlockTemplate
