import BlockTemplate.Config.Read
import BlockTemplate.Proofs.Outcome

/-!
# Which configurations are read

A configuration is read exactly if every key is known and every value has the type that its key asks
for. Each check either passes or gives an error of the configuration. Only unknown keys can fail to
be told, as they are sorted and written for it.

## Key results

- `Decides.bind`: checks one after the other
- `isReported_unknownKeysError_iff`: which unknown keys can be told
- `ofEntries_decides`: which configurations are read, and which errors the others give
-/

namespace BlockTemplate

/-- Whether an error is one of the configuration, and not a failure to tell what is wrong with it
    or to read a file. -/
def ConfigError.isReported : ConfigError → Bool
  | .mixedKeys | .file _ | .number _ => false
  | _ => true

/-! ## Checks -/

/-- Whether a check passes exactly under a condition, and else gives an error of the
    configuration. -/
structure Decides {α : Type} (valid : Prop) (check : Except ConfigError α) : Prop where
  passes_iff : (∃ a, check = .ok a) ↔ valid
  isReported : ∀ e, check = .error e → e.isReported

namespace Decides

variable {α β : Type} {valid more : Prop}

theorem of_ok {check : Except ConfigError α} {a : α} (h : check = .ok a) (hvalid : valid) :
    Decides valid check where
  passes_iff := iff_of_true ⟨a, h⟩ hvalid
  isReported := fun _ he => nomatch h.symm.trans he

theorem of_error {check : Except ConfigError α} {e : ConfigError} (h : check = .error e)
    (hvalid : ¬valid) (he : e.isReported) : Decides valid check where
  passes_iff := iff_of_false (fun ⟨_, ha⟩ => nomatch h.symm.trans ha) hvalid
  isReported := fun _ he' => Except.error.inj (h.symm.trans he') ▸ he

theorem congr {check : Except ConfigError α} (h : Decides valid check) (hiff : valid ↔ more) :
    Decides more check := propext hiff ▸ h

/-- Of checks one after the other the first that fails gives the error. -/
theorem bind {check : Except ConfigError α} {next : α → Except ConfigError β}
    (h : Decides valid check) (hnext : ∀ a, Decides more (next a)) :
    Decides (valid ∧ more) (check >>= next) := by
  cases hcheck : check with
  | error e =>
    -- a check that fails shows that its own condition does not hold
    refine of_error rfl (fun hboth => ?_) (h.isReported e hcheck)
    obtain ⟨a, ha⟩ := h.passes_iff.2 hboth.1
    exact nomatch hcheck.symm.trans ha
  | ok a =>
    have hvalid : valid := h.passes_iff.1 ⟨a, hcheck⟩
    exact (hnext a).congr (and_iff_right hvalid).symm

end Decides

/-! ## Values -/

variable {raw : List (Key × Value)}

theorem decides_switch? (key : String) :
    Decides (∀ v ∈ valueOf? (.text key) raw, ∃ b, v = .bool b) (switch? raw key) := by
  unfold switch?
  cases valueOf? (.text key) raw with
  | none => exact .of_ok rfl (by simp)
  | some v =>
    cases v with
    | bool b => exact .of_ok rfl (by simp)
    | _ => exact .of_error rfl (by simp) rfl

theorem decides_path? (base : Option Path) (key : String) :
    Decides (∀ v ∈ valueOf? (.text key) raw, v = .null ∨ ∃ s, v = .text s)
      (path? raw base key) := by
  unfold path?
  cases valueOf? (.text key) raw with
  | none => exact .of_ok rfl (by simp)
  | some v =>
    cases v with
    | null => exact .of_ok rfl (by simp)
    | text s => exact .of_ok rfl (by simp)
    | _ => exact .of_error rfl (by simp) rfl

theorem decides_globalsIn :
    Decides (∀ v ∈ valueOf? (.text globalsKey) raw,
        v = .null ∨ ∃ origin entries, v = .mapping origin entries ∧ origin ≠ .globals)
      (globalsIn raw) := by
  unfold globalsIn
  cases valueOf? (.text globalsKey) raw with
  | none => exact .of_ok rfl (by simp)
  | some v =>
    cases v with
    | mapping origin entries =>
      by_cases horigin : origin = .globals
      · exact .of_error (if_pos horigin) (by simp [horigin]) rfl
      · exact .of_ok (if_neg horigin) (by simp [horigin])
    | null => exact .of_ok rfl (by simp)
    | _ => exact .of_error rfl (by simp) rfl

/-! ## Keys -/

/-- The keys that mean nothing. -/
def unknownKeys (raw : List (Key × Value)) : List Key :=
  (raw.map (·.1)).filter fun key => !isKnownKey key

/-- Whether keys can be told: they have an order, being texts or numbers all of them, and they can
    be written. -/
def CanBeTold (keys : List Key) : Prop :=
  (keys.length ≤ 1 ∨ (∀ key ∈ keys, key.text?.isSome) ∨ ∀ key ∈ keys, key.number?.isSome)
    ∧ ∀ key ∈ keys, key.isUnwritable = false

theorem Key.perm_of_sorted? {keys sorted : List Key} (h : sorted? keys = some sorted) :
    sorted.Perm keys := by
  unfold sorted? at h
  split at h
  · cases h
    exact .refl _
  · split at h
    · cases h
      exact List.mergeSort_perm _ _
    · split at h
      · cases h
        exact List.mergeSort_perm _ _
      · exact nomatch h

theorem Key.exists_sorted?_iff (keys : List Key) :
    (∃ sorted, sorted? keys = some sorted) ↔
      keys.length ≤ 1 ∨ (∀ key ∈ keys, key.text?.isSome) ∨ ∀ key ∈ keys, key.number?.isSome := by
  rw [← List.all_eq_true, ← List.all_eq_true]
  unfold sorted?
  split
  · simp [*]
  · split
    · simp [*]
    · split <;> simp_all

/-- Unknown keys are told if they can be. -/
theorem isReported_unknownKeysError_iff (keys : List Key) :
    (unknownKeysError keys).isReported ↔ CanBeTold keys := by
  rw [CanBeTold, ← Key.exists_sorted?_iff]
  unfold unknownKeysError
  cases hsorted : Key.sorted? keys with
  | none => simp [ConfigError.isReported]
  | some sorted =>
    -- the keys are written in their order, but they are the same keys
    have hperm := Key.perm_of_sorted? hsorted
    simp only [Option.some.injEq, exists_eq', true_and, ← hperm.mem_iff, ← Bool.not_eq_true]
    split
    · rename_i hany
      obtain ⟨key, hkey, hunwritable⟩ := List.any_eq_true.1 hany
      exact iff_of_false (nomatch ·) fun hall => hall key hkey hunwritable
    · rename_i hany
      refine iff_of_true rfl fun key hkey hunwritable => hany ?_
      exact List.any_eq_true.2 ⟨key, hkey, hunwritable⟩

/-! ## Configurations -/

/-- Whether a mapping describes a configuration: its keys are known, its switches are truth values,
    its paths are null or texts, and its globals are null or a mapping. -/
structure IsValidConfig (raw : List (Key × Value)) : Prop where
  known : ∀ entry ∈ raw, isKnownKey entry.1
  switches : ∀ key ∈ boolKeys, ∀ v ∈ valueOf? (.text key) raw, ∃ b, v = .bool b
  paths : ∀ key ∈ pathKeys, ∀ v ∈ valueOf? (.text key) raw, v = .null ∨ ∃ s, v = .text s
  globals : ∀ v ∈ valueOf? (.text globalsKey) raw,
    v = .null ∨ ∃ origin entries, v = .mapping origin entries ∧ origin ≠ .globals

theorem unknownKeys_eq_nil_iff : unknownKeys raw = [] ↔ ∀ entry ∈ raw, isKnownKey entry.1 := by
  simp [unknownKeys]

/-- Where all keys are known, the values decide. -/
theorem decides_ofEntries (hknown : ∀ entry ∈ raw, isKnownKey entry.1) (base : Option Path) :
    Decides (IsValidConfig raw) (Config.ofEntries raw base) := by
  have hnone : (raw.map (·.1)).filter (fun key => !isKnownKey key) = [] :=
    unknownKeys_eq_nil_iff.2 hknown
  unfold Config.ofEntries
  rw [hnone]
  -- the checks are made one after the other: all of them have to hold, in whatever order they are
  -- stated
  refine Decides.congr ((decides_switch? "cache").bind fun _ =>
    (decides_switch? "cleanup").bind fun _ => (decides_switch? "debug").bind fun _ =>
    (decides_switch? "debug_output").bind fun _ => (decides_path? base "cache_dir").bind fun _ =>
    (decides_path? base "include_root").bind fun _ =>
    decides_globalsIn.bind fun _ => .of_ok rfl trivial) ⟨?_, fun h => ?_⟩
  · rintro ⟨hcache, hcleanup, hdebug, houtput, hfolder, hroot, hglobals, -⟩
    exact {
      known := hknown
      switches := by
        simp only [boolKeys, List.forall_mem_cons]
        exact ⟨hcache, hcleanup, hdebug, houtput, List.forall_mem_nil _⟩
      paths := by
        simp only [pathKeys, List.forall_mem_cons]
        exact ⟨hfolder, hroot, List.forall_mem_nil _⟩
      globals := hglobals }
  · exact ⟨h.switches _ (by decide), h.switches _ (by decide), h.switches _ (by decide),
      h.switches _ (by decide), h.paths _ (by decide), h.paths _ (by decide), h.globals, trivial⟩

theorem ofEntries_of_unknown (h : unknownKeys raw ≠ []) (base : Option Path) :
    Config.ofEntries raw base = .error (unknownKeysError (unknownKeys raw)) := by
  have hsome : ((raw.map (·.1)).filter fun key => !isKnownKey key).isEmpty = false :=
    List.isEmpty_eq_false_iff.2 h
  unfold Config.ofEntries
  dsimp only
  rw [hsome]
  rfl

/-- A mapping is read as a configuration exactly if it describes one. If it does not, the error is
    one of the configuration, unless there are unknown keys that cannot be told. -/
theorem ofEntries_isExact (raw : List (Key × Value)) (base : Option Path) :
    ((∃ c, Config.ofEntries raw base = .ok c) ↔ IsValidConfig raw)
      ∧ ∀ e, Config.ofEntries raw base = .error e →
        (e.isReported ↔ CanBeTold (unknownKeys raw)) := by
  by_cases hunknown : unknownKeys raw = []
  · have hdecides := decides_ofEntries (unknownKeys_eq_nil_iff.1 hunknown) base
    have hnone : CanBeTold [] := ⟨.inl (Nat.zero_le _), List.forall_mem_nil _⟩
    refine ⟨hdecides.passes_iff, fun e he => iff_of_true (hdecides.isReported e he) ?_⟩
    rwa [hunknown]
  · rw [ofEntries_of_unknown hunknown]
    refine ⟨iff_of_false (fun ⟨_, h⟩ => nomatch h) fun h =>
      hunknown (unknownKeys_eq_nil_iff.2 h.known), fun e he => ?_⟩
    rw [← Except.error.inj he, isReported_unknownKeysError_iff]

/-- A mapping with an integer and a text as unknown keys. -/
def mixedEntries : List (Key × Value) := [(.int 1, .null), (.text "x", .null)]

/-- Unknown keys of several types are not told. -/
theorem ofEntries_isNotReported_of_mixed :
    Config.ofEntries mixedEntries none = .error .mixedKeys
      ∧ ConfigError.mixedKeys.isReported = false := by
  constructor <;> rfl

end BlockTemplate
