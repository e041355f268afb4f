import BlockTemplate.Proofs.Value.Path
import Mathlib

/-!
# Values without cycles

No mapping lies within itself if each shared mapping can be given a rank above those of the shared
mappings within it. A dotted assignment keeps such ranks if there is room for it: what is assigned
ranks below the mappings that are created on the way, and these below all that have been there.
Bringing the other occurrences of the changed mapping up to date keeps them as well.

## Key results

- `isAcyclic_of_descends`: a value with ranks is acyclic
- `descends_setPathIn`, `Value.IsRanked.share`: what keeps the ranks
- `exists_makesRoom`: there is room for the assignment of a value that is new to all others
- `exists_isRanked_setPathIn`: what such an assignment leaves
-/

namespace BlockTemplate

/-- Whether a shared mapping ranks above the shared mappings within it. -/
def Value.Descends (rank : Origin → Nat) : Value → Prop
  | .mapping origin entries =>
    origin.isShared → ∀ o ∈ entriesOrigins entries, o.isShared → rank o < rank origin
  | _ => True

/-- Whether no shared mapping in a value lies within itself. -/
def Value.IsAcyclic (v : Value) : Prop :=
  v.Within fun
    | .mapping origin entries => origin.isShared → origin ∉ entriesOrigins entries
    | _ => True

section
variable {P : Value → Prop} {rank : Origin → Nat} {o origin : Origin} {v c : Value}
  {entries contents : List (Key × Value)}

theorem isAcyclic_of_descends (h : v.Within (Value.Descends rank)) : v.IsAcyclic := by
  intro c hc
  cases c with
  | mapping o entries =>
    intro hshared hmem
    have hdescends : (Value.mapping o entries).Descends rank := h _ hc
    exact Nat.lt_irrefl _ (hdescends hshared o hmem hshared)
  | _ => trivial

theorem Value.origins_trans (hc : c ∈ v.containers) : c.origins ⊆ v.origins := by
  rw [Value.origins_eq_filterMap, Value.origins_eq_filterMap]
  exact List.filterMap_subset _ (Value.containers_trans hc)

theorem entriesOrigins_trans (hc : c ∈ entriesContainers entries) :
    c.origins ⊆ entriesOrigins entries := by
  rw [Value.origins_eq_filterMap, entriesOrigins_eq_filterMap]
  exact List.filterMap_subset _ (entriesContainers_trans hc)

/-! ## Sharing -/

mutual

/-- A value keeps what holds of all containers in it when a mapping is brought up to date, if the
    mapping has it and no other container loses it. -/
theorem Value.Within.share (hcontents : (Value.mapping origin contents).Within P)
    (hshare : ∀ c, P c → P (c.share origin contents)) :
    ∀ {v : Value}, v.Within P → (v.share origin contents).Within P
  | .mapping o entries, h => by
    have hself := hshare _ (h _ List.mem_cons_self)
    rw [Value.share] at hself ⊢
    split
    · -- the mapping itself is replaced by the contents
      rename_i heq
      rw [heq]
      exact hcontents
    · rename_i hne
      rw [if_neg hne] at hself
      have hrest := within_shareEntries hcontents hshare (List.forall_mem_cons.1 h).2
      exact List.forall_mem_cons.2 ⟨hself, hrest⟩
  | .sequence o items, h => by
    obtain ⟨hself, hitems⟩ := List.forall_mem_cons.1 h
    have hrest := within_shareItems hcontents hshare hitems
    exact List.forall_mem_cons.2 ⟨hshare _ hself, hrest⟩
  | .object identity className attributes items, h => by
    obtain ⟨hself, hrest⟩ := List.forall_mem_cons.1 h
    obtain ⟨hattributes, hitems⟩ := List.forall_mem_append.1 hrest
    have hrest := List.forall_mem_append.2
      ⟨within_shareAttributes hcontents hshare hattributes,
        within_shareYields hcontents hshare hitems⟩
    exact List.forall_mem_cons.2 ⟨hshare _ hself, hrest⟩
  | .null, _ | .bool _, _ | .number _, _ | .text _, _ => List.forall_mem_nil _

theorem within_shareItems (hcontents : (Value.mapping origin contents).Within P)
    (hshare : ∀ c, P c → P (c.share origin contents)) :
    ∀ {items : List Value}, (∀ c ∈ itemsContainers items, P c) →
      ∀ c ∈ itemsContainers (shareItems origin contents items), P c
  | [], _ => List.forall_mem_nil _
  | _ :: _, h => List.forall_mem_append.2
    ⟨Value.Within.share hcontents hshare (List.forall_mem_append.1 h).1,
      within_shareItems hcontents hshare (List.forall_mem_append.1 h).2⟩

theorem within_shareEntries (hcontents : (Value.mapping origin contents).Within P)
    (hshare : ∀ c, P c → P (c.share origin contents)) :
    ∀ {entries : List (Key × Value)}, (∀ c ∈ entriesContainers entries, P c) →
      ∀ c ∈ entriesContainers (shareEntries origin contents entries), P c
  | [], _ => List.forall_mem_nil _
  | (_, _) :: _, h => List.forall_mem_append.2
    ⟨Value.Within.share hcontents hshare (List.forall_mem_append.1 h).1,
      within_shareEntries hcontents hshare (List.forall_mem_append.1 h).2⟩

theorem within_shareAttributes (hcontents : (Value.mapping origin contents).Within P)
    (hshare : ∀ c, P c → P (c.share origin contents)) :
    ∀ {attributes : List (String × Value)}, (∀ c ∈ attributesContainers attributes, P c) →
      ∀ c ∈ attributesContainers (shareAttributes origin contents attributes), P c
  | [], _ => List.forall_mem_nil _
  | (_, _) :: _, h => List.forall_mem_append.2
    ⟨Value.Within.share hcontents hshare (List.forall_mem_append.1 h).1,
      within_shareAttributes hcontents hshare (List.forall_mem_append.1 h).2⟩

theorem within_shareYields (hcontents : (Value.mapping origin contents).Within P)
    (hshare : ∀ c, P c → P (c.share origin contents)) :
    ∀ {items : Option (List Value)}, (∀ c ∈ yieldsContainers items, P c) →
      ∀ c ∈ yieldsContainers (shareYields origin contents items), P c
  | none, _ => List.forall_mem_nil _
  | some _, h => within_shareItems hcontents hshare h

end

/-- A mapping in which another one has been brought up to date ranks above what is in that one, for
    it ranks above that one. -/
theorem Value.Descends.share (h : c.Descends rank) (hshared : origin.isShared)
    (hcontents : (Value.mapping origin contents).Descends rank) :
    (c.share origin contents).Descends rank := by
  cases c with
  | mapping o entries =>
    rw [Value.share]
    split
    · rename_i heq
      rw [heq]
      exact hcontents
    · intro ho o' hmem ho'
      by_cases horigin : origin ∈ entriesOrigins entries
      · rcases mem_origins_shareEntries hmem with hmem | hmem
        · exact h ho o' hmem ho'
        · exact (hcontents hshared o' hmem ho').trans (h ho origin horigin hshared)
      · -- the changed mapping is not there
        rw [shareEntries_eq_self contents horigin] at hmem
        exact h ho o' hmem ho'
  | _ => trivial

/-! ## Writing -/

/-- Whether ranks leave room for an assignment that creates mappings with the numbers from `fresh`
    up to `upto`: what is assigned ranks below these, a later one ranks below an earlier one, and
    all of it ranks below the mappings that are present. -/
structure MakesRoom (rank : Origin → Nat) (present : Origin → Prop) (v : Value)
    (fresh upto : Nat) : Prop where
  value : ∀ o ∈ v.origins, o.isShared → ∀ n, fresh ≤ n → n < upto → rank o < rank (.assigned n)
  created : ∀ m n, fresh ≤ m → m < n → n < upto → rank (.assigned n) < rank (.assigned m)
  value_lt : ∀ o, present o → o.isShared → ∀ o' ∈ v.origins, o'.isShared → rank o' < rank o
  created_lt : ∀ o, present o → o.isShared →
    ∀ n, fresh ≤ n → n < upto → rank (.assigned n) < rank o

/-- Where there is room for it, an assignment keeps the ranks. -/
theorem descends_setPathIn {present : Origin → Prop} {first fresh upto : Nat} {key : String}
    {keys : List String} (hroom : MakesRoom rank present v first upto)
    (hv : v.Within (Value.Descends rank)) (hfirst : first ≤ fresh)
    (hupto : fresh + keys.length ≤ upto)
    (hentries : ∀ entry ∈ entries, entry.2.Within (Value.Descends rank))
    (hpresent : ∀ o ∈ entriesOrigins entries, present o) :
    ∀ entry ∈ setPathIn fresh v key keys entries, entry.2.Within (Value.Descends rank) := by
  induction keys generalizing fresh key entries with
  | nil =>
    exact forall_mem_upsert_of_congr (P := fun _ (v : Value) => v.Within (Value.Descends rank))
      (fun _ hw => hw) hv hentries
  | cons next keys ih =>
    rw [List.length_cons] at hupto
    rw [setPathIn_cons]
    apply forall_mem_upsert_of_congr (P := fun _ (v : Value) => v.Within (Value.Descends rank))
      (fun _ hw => hw) _ hentries
    rw [within_mapping]
    cases hway : (valueOf? (Key.text key) entries).bind Value.writableEntries? with
    | none =>
      rw [wayAt_of_created hway]
      constructor
      · -- a new mapping holds nothing but what is assigned and newer mappings
        intro _ o ho hshared
        obtain ho | ⟨n, hle, hlt, rfl⟩ | ho := mem_origins_setPathIn ho
        · exact hroom.value o ho hshared fresh hfirst (by omega)
        · exact hroom.created fresh n hfirst (by omega) (by omega)
        · exact nomatch ho
      · exact ih (by omega) (by omega) (List.forall_mem_nil _) (List.forall_mem_nil _)
    | some way =>
      obtain ⟨o', inner⟩ := way
      rw [wayAt_of_writable hway]
      have hvalue := valueOf?_of_writable hway
      obtain ⟨entry, hentry, heq, -⟩ := mem_of_valueOf? hvalue
      have hold := hentries entry hentry
      rw [heq, within_mapping] at hold
      have hinner : ∀ o ∈ entriesOrigins inner, present o := fun o ho =>
        hpresent o (mem_origins_of_valueOf? hvalue (List.mem_cons_of_mem _ ho))
      constructor
      · intro hshared' o ho hshared
        have hpresent' : present o' :=
          hpresent o' (mem_origins_of_valueOf? hvalue List.mem_cons_self)
        obtain ho | ⟨n, hle, hlt, rfl⟩ | ho := mem_origins_setPathIn ho
        · exact hroom.value_lt o' hpresent' hshared' o ho hshared
        · exact hroom.created_lt o' hpresent' hshared' n (by omega) (by omega)
        · exact hold.1 hshared' o ho hshared
      · exact ih (by omega) (by omega) hold.2 hinner

/-- Only a shared mapping is one that others have to be brought up to date with. -/
theorem isShared_of_changedMapping? {fresh : Nat} {key : String} {keys : List String}
    (h : changedMapping? fresh v key keys entries = some (origin, contents)) : origin.isShared := by
  induction keys generalizing fresh key entries with
  | nil => cases h
  | cons next keys ih =>
    rw [changedMapping?] at h
    split at h
    · cases h
    · split at h
      · rename_i hinner
        cases h
        exact ih hinner
      · split at h
        · rename_i hshared
          cases h
          exact hshared
        · cases h

/-- The mapping that an assignment changes is there afterwards. -/
theorem mem_containers_of_changedMapping? {fresh : Nat} {key : String} {keys : List String}
    (h : changedMapping? fresh v key keys entries = some (origin, contents)) :
    Value.mapping origin contents ∈ entriesContainers (setPathIn fresh v key keys entries) := by
  induction keys generalizing fresh key entries with
  | nil => cases h
  | cons next keys ih =>
    rw [changedMapping?] at h
    cases hway : (valueOf? (Key.text key) entries).bind Value.writableEntries? with
    | none =>
      rw [hway] at h
      cases h
    | some way =>
      obtain ⟨o', inner⟩ := way
      rw [hway] at h
      rw [setPathIn_cons, wayAt_of_writable hway]
      obtain ⟨entry, hentry, heq, -⟩ := mem_of_valueOf? (valueOf?_upsert_self (Key.text key)
        (Value.mapping o' (setPathIn (fresh + 1) v next keys inner)) entries)
      apply mem_entriesContainers.2
      refine ⟨entry, hentry, ?_⟩
      rw [heq]
      -- the mapping that is changed is further down, or it is the one that the last name is in
      cases hinner : changedMapping? (fresh + 1) v next keys inner with
      | some changed =>
        simp only [hinner] at h
        cases h
        exact List.mem_cons_of_mem _ (ih hinner)
      | none =>
        simp only [hinner] at h
        split at h
        · cases h
          exact List.mem_cons_self
        · cases h

/-! ## New values -/

/-- Whether an origin is among the given ones or is that of a mapping that has been created. -/
def Origin.IsKnown (given : List Origin) (numbered : Nat) : Origin → Prop
  | .host n => .host n ∈ given
  | .assigned n => n < numbered
  | _ => True

/-- Whether an array of an origin is neither among the given ones nor one that has been created. -/
def Origin.IsNew (given : List Origin) : Origin → Prop
  | .host n => .host n ∉ given
  | .assigned _ => False
  | _ => True

/-- Whether a value has nothing in common with what has been given, and has ranks of its own. -/
structure Value.IsNew (given : List Origin) (v : Value) : Prop where
  origins : ∀ o ∈ v.origins, o.IsNew given
  ranked : ∃ rank, v.Within (Value.Descends rank)

/-- Whether a container fits the ranks of a session that knows the given origins. -/
structure Value.IsRanked (rank : Origin → Nat) (given : List Origin) (numbered : Nat)
    (c : Value) : Prop where
  descends : c.Descends rank
  known : ∀ o ∈ c.origins, o.IsKnown given numbered

/-- Ranks after an assignment: lowest what is assigned, then the mappings that are created, each
    above the next one, and then all that has been there. -/
def rankAfter (rank inner : Origin → Nat) (v : Value) (bound fresh count : Nat) : Origin → Nat
  | .host n =>
    if .host n ∈ v.origins then inner (.host n) else bound + count + 1 + rank (.host n)
  | .assigned n =>
    if n < fresh then bound + count + 1 + rank (.assigned n) else bound + (fresh + count - n)
  | _ => 0

section
variable {inner : Origin → Nat} {given : List Origin} {bound fresh numbered count : Nat}

theorem rankAfter_of_known (hnew : ∀ o ∈ v.origins, o.IsNew given) (ho : o.IsKnown given fresh)
    (hshared : o.isShared) :
    rankAfter rank inner v bound fresh count o = bound + count + 1 + rank o := by
  cases o with
  | host n =>
    have hmem : Origin.host n ∉ v.origins := fun hmem => hnew _ hmem ho
    exact if_neg hmem
  | assigned n => exact if_pos ho
  | _ => cases hshared

theorem rankAfter_of_new (hnew : ∀ o ∈ v.origins, o.IsNew given) (ho : o ∈ v.origins)
    (hshared : o.isShared) : rankAfter rank inner v bound fresh count o = inner o := by
  cases o with
  | host n => exact if_pos ho
  | assigned n => exact (hnew _ ho).elim
  | _ => cases hshared

theorem rankAfter_of_created {n : Nat} (h : fresh ≤ n) :
    rankAfter rank inner v bound fresh count (.assigned n) = bound + (fresh + count - n) :=
  if_neg (Nat.not_lt.2 h)

theorem makesRoom_rankAfter (hnew : ∀ o ∈ v.origins, o.IsNew given)
    (hbound : ∀ o ∈ v.origins, inner o < bound) :
    MakesRoom (rankAfter rank inner v bound fresh count) (Origin.IsKnown given fresh) v fresh
      (fresh + count) where
  value o ho hshared n hle hlt := by
    have hlow := hbound o ho
    rw [rankAfter_of_new hnew ho hshared, rankAfter_of_created hle]
    omega
  created m n hle hlt hupto := by
    rw [rankAfter_of_created hle, rankAfter_of_created (hle.trans hlt.le)]
    omega
  value_lt o ho hshared o' ho' hshared' := by
    have hlow := hbound o' ho'
    rw [rankAfter_of_new hnew ho' hshared', rankAfter_of_known hnew ho hshared]
    omega
  created_lt o ho hshared n hle hlt := by
    rw [rankAfter_of_created hle, rankAfter_of_known hnew ho hshared]
    omega

/-- Other ranks do as well if they order the shared mappings of a container in the same way. -/
theorem Value.Descends.congr {rank' : Origin → Nat} (h : c.Descends rank)
    (hrank : ∀ o ∈ c.origins, ∀ o' ∈ c.origins, o.isShared → o'.isShared →
      rank o' < rank o → rank' o' < rank' o) : c.Descends rank' := by
  cases c with
  | mapping o entries =>
    intro hshared o' ho' hshared'
    exact hrank o List.mem_cons_self o' (List.mem_cons_of_mem _ ho') hshared hshared'
      (h hshared o' ho' hshared')
  | _ => trivial

theorem Origin.IsKnown.mono {given' : List Origin} {numbered' : Nat}
    (h : o.IsKnown given numbered) (hgiven : given ⊆ given') (hnumbered : numbered ≤ numbered') :
    o.IsKnown given' numbered' := by
  cases o with
  | host n => exact hgiven h
  | assigned n => exact Nat.lt_of_lt_of_le h hnumbered
  | _ => trivial

/-- Bringing a ranked mapping up to date leaves everything ranked. -/
theorem Value.IsRanked.share (h : c.IsRanked rank given numbered) (hshared : origin.isShared)
    (hcontents : (Value.mapping origin contents).IsRanked rank given numbered) :
    (c.share origin contents).IsRanked rank given numbered where
  descends := h.descends.share hshared hcontents.descends
  known o ho := by
    rcases c.mem_origins_share ho with ho | ho
    · exact h.known o ho
    · exact hcontents.known o (List.mem_cons_of_mem _ ho)

theorem isRanked_of_entries
    (hentries : ∀ entry ∈ entries, entry.2.Within (Value.Descends rank))
    (hknown : ∀ o ∈ entriesOrigins entries, o.IsKnown given numbered) :
    ∀ c ∈ entriesContainers entries, c.IsRanked rank given numbered := by
  intro c hc
  constructor
  · obtain ⟨entry, hentry, hmem⟩ := mem_entriesContainers.1 hc
    exact hentries entry hentry c hmem
  · intro o ho
    exact hknown o (entriesOrigins_trans hc ho)

theorem isKnown_of_ranked (h : ∀ c ∈ entriesContainers entries, c.IsRanked rank given numbered) :
    ∀ o ∈ entriesOrigins entries, o.IsKnown given numbered := by
  intro o ho
  rw [entriesOrigins_eq_filterMap, List.mem_filterMap] at ho
  obtain ⟨c, hc, horigin⟩ := ho
  apply (h c hc).known
  cases c with
  | mapping o' inner =>
    cases horigin
    exact List.mem_cons_self
  | _ => cases horigin

theorem Origin.IsNew.isKnown {given' : List Origin} (h : o.IsNew given) (ho : o ∈ given') :
    o.IsKnown given' numbered := by
  cases o with
  | host n => exact ho
  | assigned n => exact h.elim
  | _ => trivial

/-- There are ranks that leave room for the assignment of a new value and suit all that has suited
    the ranks before. -/
theorem exists_makesRoom (hv : v.IsNew given) (rank : Origin → Nat) (fresh count : Nat) :
    ∃ rank', MakesRoom rank' (Origin.IsKnown given fresh) v fresh (fresh + count)
      ∧ v.Within (Value.Descends rank')
      ∧ ∀ c : Value, c.IsRanked rank given fresh → c.Descends rank' := by
  obtain ⟨inner, hinner⟩ := hv.ranked
  have hbound : ∀ o ∈ v.origins, inner o < (v.origins.map inner).sum + 1 := by
    intro o ho
    have hle := List.single_le_sum (fun _ _ => Nat.zero_le _) (inner o) (List.mem_map_of_mem ho)
    exact Nat.lt_succ_of_le hle
  refine ⟨rankAfter rank inner v _ fresh count, makesRoom_rankAfter hv.origins hbound, ?_, ?_⟩
  · intro c hc
    have hsub : c.origins ⊆ v.origins := Value.origins_trans hc
    apply (hinner c hc).congr
    intro o ho o' ho' hshared hshared' hlt
    rwa [rankAfter_of_new hv.origins (hsub ho) hshared,
      rankAfter_of_new hv.origins (hsub ho') hshared']
  · intro c hc
    apply hc.descends.congr
    intro o ho o' ho' hshared hshared' hlt
    rw [rankAfter_of_known hv.origins (hc.known o ho) hshared,
      rankAfter_of_known hv.origins (hc.known o' ho') hshared']
    omega

/-- An assignment of a new value leaves the entries ranked, by ranks that suit all that has been
    ranked before. -/
theorem exists_isRanked_setPathIn (hv : v.IsNew given) (key : String) (keys : List String)
    (hentries : ∀ c ∈ entriesContainers entries, c.IsRanked rank given fresh) :
    ∃ rank',
      (∀ c ∈ entriesContainers (setPathIn fresh v key keys entries),
        c.IsRanked rank' (v.origins ++ given) (fresh + keys.length))
      ∧ ∀ c : Value, c.IsRanked rank given fresh →
        c.IsRanked rank' (v.origins ++ given) (fresh + keys.length) := by
  obtain ⟨rank', hroom, hvalue, hkeep⟩ := exists_makesRoom hv rank fresh keys.length
  have hgiven : given ⊆ v.origins ++ given := List.subset_append_right _ _
  have hcount : fresh ≤ fresh + keys.length := Nat.le_add_right _ _
  have hpresent := isKnown_of_ranked hentries
  refine ⟨rank', isRanked_of_entries ?_ ?_, ?_⟩
  · apply descends_setPathIn hroom hvalue (Nat.le_refl _) (Nat.le_refl _) _ hpresent
    intro entry hentry c hc
    exact hkeep c (hentries c (mem_entriesContainers.2 ⟨entry, hentry, hc⟩))
  · intro o ho
    obtain ho | ⟨n, -, hlt, rfl⟩ | ho := mem_origins_setPathIn ho
    · exact (hv.origins o ho).isKnown (List.mem_append_left _ ho)
    · exact hlt
    · exact (hpresent o ho).mono hgiven hcount
  · intro c hc
    exact ⟨hkeep c hc, fun o ho => (hc.known o ho).mono hgiven hcount⟩

end

end

end BlockTemplate
