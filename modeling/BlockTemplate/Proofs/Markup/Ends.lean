import BlockTemplate.Proofs.Markup.Search

/-!
# Where constructs end

A search for the end of a construct passes over markers as long as no more levels are closed than
were opened. Counted with their signs, the markers before the end balance and never close more than
they open. What separates the branches of a conditional is not within another one that stands in
between, and there is at most one such marker.

## Key results

- `GoesOver.some_iff`, `isReach_iff`: how far a search gets, told by sums over the markers
- `closing?_of_goesOver`, `branchEnds_of_goesOver`: what the searches for ends find
- `branchEnds_eq_ok_iff`, `branchEnds_eq_duplicate_iff`, `branchEnds_eq_notClosed_iff`: the results
  of the search for the end of a conditional
- `ends_areBalanced`: the ends of blocks, loops and conditionals, and the errors if there is none
-/

namespace BlockTemplate

/-! ## Levels -/

/-- The levels that a marker opens. -/
def Turn.step : Turn → Int
  | .opens => 1
  | .closes => -1

/-- The levels that a marker opens. -/
def BranchTurn.step : BranchTurn → Int
  | .opens => 1
  | .separates => 0
  | .closes => -1

theorem Turn.neg_one_le_step (turn : Turn) : -1 ≤ turn.step := by
  cases turn <;> decide

theorem BranchTurn.neg_one_le_step (turn : BranchTurn) : -1 ≤ turn.step := by
  cases turn <;> decide

section
variable {ι : Type} {step : ι → Int}

/-- The levels that some markers open. -/
def levelBehind (step : ι → Int) (founds : List (Found ι)) : Int :=
  (founds.map (step ·.item)).sum

@[simp] theorem levelBehind_nil : levelBehind step [] = 0 := rfl

@[simp] theorem levelBehind_cons (found : Found ι) (founds : List (Found ι)) :
    levelBehind step (found :: founds) = step found.item + levelBehind step founds :=
  List.sum_cons

/-- A marker that closes what was open before `depth` levels were opened, and the markers before it:
    these close the levels, and at no place more than them. -/
structure EndsAfter (step : ι → Int) (depth : Int) (founds before : List (Found ι))
    (close : Found ι) : Prop where
  isPrefix : before ++ [close] <+: founds
  closes : step close.item = -1
  level_eq : depth + levelBehind step before = 0
  level_nonneg : ∀ start, start <+: before → 0 ≤ depth + levelBehind step start

/-- Whether the marker closes what was open before all of the markers. -/
def EndsAt (step : ι → Int) (founds : List (Found ι)) (close : Found ι) : Prop :=
  ∃ before, EndsAfter step 0 founds before close

/-- The markers before the one that closes what was open, or all if none does. -/
def IsReach (step : ι → Int) (founds reach : List (Found ι)) : Prop :=
  (∃ close, EndsAfter step 0 founds reach close)
    ∨ reach = founds ∧ ∀ close, ¬ EndsAt step founds close

/-! ## How far a search gets -/

/-- The markers that a search with some open levels passes over, and the one at which it ends. -/
inductive GoesOver (step : ι → Int) :
    Int → List (Found ι) → List (Found ι) → Option (Found ι) → Prop where
  | nil (depth : Int) : GoesOver step depth [] [] none
  | ends {depth : Int} {found : Found ι} (h : depth + step found.item < 0)
      (rest : List (Found ι)) : GoesOver step depth (found :: rest) [] (some found)
  | passes {depth : Int} {found : Found ι} {rest reach : List (Found ι)}
      {close : Option (Found ι)} (h : 0 ≤ depth + step found.item)
      (hrest : GoesOver step (depth + step found.item) rest reach close) :
      GoesOver step depth (found :: rest) (found :: reach) close

variable {depth : Int} {founds reach reach' : List (Found ι)} {close close' : Option (Found ι)}

theorem exists_goesOver (step : ι → Int) (depth : Int) (founds : List (Found ι)) :
    ∃ reach close, GoesOver step depth founds reach close := by
  induction founds generalizing depth with
  | nil => exact ⟨_, _, .nil depth⟩
  | cons found rest ih =>
    by_cases h : depth + step found.item < 0
    · exact ⟨_, _, .ends h rest⟩
    · obtain ⟨reach, close, hrest⟩ := ih (depth + step found.item)
      exact ⟨_, _, .passes (Int.not_lt.1 h) hrest⟩

namespace GoesOver

theorem unique (h : GoesOver step depth founds reach close)
    (h' : GoesOver step depth founds reach' close') : reach = reach' ∧ close = close' := by
  induction h generalizing reach' with
  | nil =>
    cases h'
    exact ⟨rfl, rfl⟩
  | ends hlt =>
    cases h' with
    | ends => exact ⟨rfl, rfl⟩
    | passes hle => exact absurd hlt (Int.not_lt.2 hle)
  | passes hle hrest ih =>
    cases h' with
    | ends hlt => exact absurd hlt (Int.not_lt.2 hle)
    | passes hle' hrest' =>
      obtain ⟨rfl, rfl⟩ := ih hrest'
      exact ⟨rfl, rfl⟩

theorem isPrefix (h : GoesOver step depth founds reach close) : reach <+: founds := by
  induction h with
  | nil => exact List.nil_prefix
  | ends => exact List.nil_prefix
  | passes hle hrest ih => exact (List.prefix_cons_inj _).2 ih

/-- A search that does not end passes over all markers. -/
theorem eq_of_none (h : GoesOver step depth founds reach none) : reach = founds := by
  generalize hclose : (none : Option (Found ι)) = close at h
  induction h with
  | nil => rfl
  | ends => exact nomatch hclose
  | passes hle hrest ih => rw [ih hclose]

/-- A search ends at a marker that closes what was open before. -/
theorem endsAfter (hstep : ∀ item, -1 ≤ step item) {close : Found ι} (hdepth : 0 ≤ depth)
    (h : GoesOver step depth founds reach (some close)) :
    EndsAfter step depth founds reach close := by
  -- by induction on the walk: of each start of what it passes, the level is one where it went on
  generalize hclose : some close = close' at h
  induction h with
  | nil => exact nomatch hclose
  | @ends depth found hlt rest =>
    cases hclose
    have hle := hstep close.item
    refine ⟨⟨rest, rfl⟩, by omega, by rw [levelBehind_nil]; omega, fun start hstart => ?_⟩
    rw [List.prefix_nil.1 hstart, levelBehind_nil]
    omega
  | @passes depth found rest reach close' hle hrest ih =>
    have hends := ih hle hclose
    refine ⟨(List.prefix_cons_inj _).2 hends.isPrefix, hends.closes, ?_, fun start hstart => ?_⟩
    · rw [levelBehind_cons, ← Int.add_assoc]
      exact hends.level_eq
    · rcases List.prefix_cons_iff.1 hstart with rfl | ⟨more, rfl, hmore⟩
      · rw [levelBehind_nil]
        omega
      · rw [levelBehind_cons, ← Int.add_assoc]
        exact hends.level_nonneg more hmore

end GoesOver

/-- A search gets to the first marker that closes what was open before. -/
theorem EndsAfter.goesOver {before : List (Found ι)} {close : Found ι}
    (h : EndsAfter step depth founds before close) :
    GoesOver step depth founds before (some close) := by
  obtain ⟨⟨rest, rfl⟩, hcloses, hlevel, hnonneg⟩ := h
  induction before generalizing depth with
  | nil =>
    rw [levelBehind_nil] at hlevel
    exact .ends (by omega) rest
  | cons found before ih =>
    have hfound : 0 ≤ depth + step found.item := by
      have hsingle := hnonneg [found] ⟨before, rfl⟩
      rwa [levelBehind_cons, levelBehind_nil, Int.add_zero] at hsingle
    refine .passes hfound (ih ?_ fun start hstart => ?_)
    · rw [levelBehind_cons, ← Int.add_assoc] at hlevel
      exact hlevel
    · have hstarts := hnonneg (found :: start) ((List.prefix_cons_inj _).2 hstart)
      rw [levelBehind_cons, ← Int.add_assoc] at hstarts
      exact hstarts

/-- A search that passes over all markers meets none that closes what was open before. -/
theorem GoesOver.not_endsAt (h : GoesOver step 0 founds reach none) (close : Found ι) :
    ¬ EndsAt step founds close := by
  rintro ⟨before, hends⟩
  exact nomatch (h.unique hends.goesOver).2

theorem GoesOver.some_iff (hstep : ∀ item, -1 ≤ step item) {close : Found ι} :
    GoesOver step 0 founds reach (some close) ↔ EndsAfter step 0 founds reach close :=
  ⟨GoesOver.endsAfter hstep (Int.le_refl 0), EndsAfter.goesOver⟩

theorem isReach_iff (hstep : ∀ item, -1 ≤ step item) :
    IsReach step founds reach ↔ ∃ close, GoesOver step 0 founds reach close := by
  constructor
  · rintro (⟨close, hends⟩ | ⟨rfl, hnot⟩)
    · exact ⟨some close, hends.goesOver⟩
    · obtain ⟨reach', close, hgoes⟩ := exists_goesOver step 0 reach
      cases close with
      | none => exact ⟨none, hgoes.eq_of_none ▸ hgoes⟩
      | some close => exact absurd ⟨reach', (GoesOver.some_iff hstep).1 hgoes⟩ (hnot close)
  · rintro ⟨close, hgoes⟩
    cases close with
    | none => exact .inr ⟨hgoes.eq_of_none, hgoes.not_endsAt⟩
    | some close => exact .inl ⟨close, (GoesOver.some_iff hstep).1 hgoes⟩

end

/-! ## Searches for an end -/

section
variable {founds reach : List (Found Turn)} {close : Option (Found Turn)}

theorem closing?_of_goesOver (depth : Nat) (h : GoesOver Turn.step depth founds reach close) :
    closing? depth founds = close := by
  -- the level of the walk is the number of open constructs of the search, which is not negative
  generalize hdepth : (depth : Int) = level at h
  induction h generalizing depth with
  | nil => rfl
  | @ends level found hlt rest =>
    obtain ⟨start, stop, item⟩ := found
    cases item with
    | opens => simp only [Turn.step] at hlt; omega
    | closes =>
      cases depth with
      | zero => rfl
      | succ depth => simp only [Turn.step] at hlt; omega
  | @passes level found rest reach close hle hrest ih =>
    obtain ⟨start, stop, item⟩ := found
    cases item with
    | opens => exact ih (depth + 1) (by simp only [Turn.step]; omega)
    | closes =>
      cases depth with
      | zero => simp only [Turn.step] at hle; omega
      | succ depth => exact ih depth (by simp only [Turn.step]; omega)

theorem closing?_eq_some_iff {close : Found Turn} :
    closing? 0 founds = some close ↔ EndsAt Turn.step founds close := by
  constructor
  · intro h
    obtain ⟨reach, close', hgoes⟩ := exists_goesOver Turn.step 0 founds
    obtain rfl : close' = some close := (closing?_of_goesOver 0 hgoes).symm.trans h
    exact ⟨reach, (GoesOver.some_iff Turn.neg_one_le_step).1 hgoes⟩
  · rintro ⟨before, hends⟩
    exact closing?_of_goesOver 0 hends.goesOver

theorem closing?_eq_none_iff :
    closing? 0 founds = none ↔ ∀ close, ¬ EndsAt Turn.step founds close := by
  rw [Option.eq_none_iff_forall_ne_some]
  exact forall_congr' fun close => not_congr closing?_eq_some_iff

end

/-! ## Separators -/

/-- A marker between branches that is within none of the constructs in between. -/
def IsOuterSeparator (founds : List (Found BranchTurn)) (found : Found BranchTurn) : Prop :=
  ∃ before after, founds = before ++ found :: after ∧ found.item = .separates
    ∧ levelBehind BranchTurn.step before = 0

/-- Whether there is more than one outer separator. -/
def HasTwoSeparators (founds : List (Found BranchTurn)) : Prop :=
  ∃ a b, IsOuterSeparator founds a ∧ IsOuterSeparator founds b ∧ a.start < b.start

/-- The markers between branches at which no level is open. -/
def outerSeparators (depth : Int) : List (Found BranchTurn) → List (Found BranchTurn)
  | [] => []
  | found :: rest =>
    if found.item = .separates ∧ depth = 0 then
      found :: outerSeparators (depth + found.item.step) rest
    else outerSeparators (depth + found.item.step) rest

/-- What a search makes of the separators and the end that it comes to. -/
def endsOf (separators : List (Found BranchTurn)) (close : Option (Found BranchTurn)) :
    Except BranchError (Option (Found BranchTurn) × Found BranchTurn) :=
  match separators, close with
  | _ :: _ :: _, _ => .error .duplicateElse
  | _, none => .error .notClosed
  | separators, some close => .ok (separators.head?, close)

section
variable {founds reach : List (Found BranchTurn)} {found : Found BranchTurn}
  {close : Option (Found BranchTurn)}

theorem mem_outerSeparators_iff {depth : Int} :
    found ∈ outerSeparators depth founds
      ↔ ∃ before after, founds = before ++ found :: after ∧ found.item = .separates
        ∧ depth + levelBehind BranchTurn.step before = 0 := by
  induction founds generalizing depth with
  | nil => simp [outerSeparators]
  | cons first rest ih =>
    have hmem : found ∈ outerSeparators depth (first :: rest)
        ↔ (found = first ∧ first.item = .separates ∧ depth = 0)
          ∨ found ∈ outerSeparators (depth + first.item.step) rest := by
      rw [outerSeparators]
      split
      · rename_i hfirst
        rw [List.mem_cons]
        simp only [hfirst, and_self, and_true]
      · rename_i hfirst
        simp only [hfirst, and_false, false_or]
    rw [hmem, ih]
    -- the first marker is the one that is found, or is in front of it
    constructor
    · rintro (⟨rfl, hitem, hdepth⟩ | ⟨before, after, rfl, hitem, hlevel⟩)
      · exact ⟨[], rest, rfl, hitem, by rw [levelBehind_nil, Int.add_zero]; exact hdepth⟩
      · exact ⟨first :: before, after, rfl, hitem, by
          rw [levelBehind_cons, ← Int.add_assoc]; exact hlevel⟩
    · rintro ⟨before, after, heq, hitem, hlevel⟩
      cases before with
      | nil =>
        cases heq
        rw [levelBehind_nil, Int.add_zero] at hlevel
        exact .inl ⟨rfl, hitem, hlevel⟩
      | cons first' before =>
        cases heq
        rw [levelBehind_cons, ← Int.add_assoc] at hlevel
        exact .inr ⟨before, after, rfl, hitem, hlevel⟩

theorem mem_outerSeparators_zero_iff :
    found ∈ outerSeparators 0 founds ↔ IsOuterSeparator founds found := by
  rw [mem_outerSeparators_iff, IsOuterSeparator]
  simp only [Int.zero_add]

theorem outerSeparators_sublist (depth : Int) (founds : List (Found BranchTurn)) :
    (outerSeparators depth founds).Sublist founds := by
  induction founds generalizing depth with
  | nil => exact List.Sublist.refl []
  | cons found rest ih =>
    rw [outerSeparators]
    split
    · exact (ih _).cons_cons found
    · exact (ih _).cons found

/-- A search for the end of a conditional finds the outer separators on its way. -/
theorem branchEnds_of_goesOver (depth : Nat) {separator : Option (Found BranchTurn)}
    (h : GoesOver BranchTurn.step depth founds reach close) :
    branchEnds depth separator founds
      = endsOf (separator.toList ++ outerSeparators depth reach) close := by
  generalize hdepth : (depth : Int) = level at h
  induction h generalizing depth separator with
  | nil => cases separator <;> rfl
  | @ends level found hlt rest =>
    obtain ⟨start, stop, item⟩ := found
    cases item with
    | opens | separates => simp only [BranchTurn.step] at hlt; omega
    | closes =>
      cases depth with
      | zero => cases separator <;> rfl
      | succ depth => simp only [BranchTurn.step] at hlt; omega
  | @passes level found rest reach close hle hrest ih =>
    subst hdepth
    obtain ⟨start, stop, item⟩ := found
    cases item with
    | opens => exact ih (depth + 1) rfl
    | separates =>
      cases depth with
      | zero =>
        -- a separator on the outer level is kept if it is the first one
        cases separator with
        | none => exact ih 0 rfl
        | some other => rfl
      | succ depth =>
        have hnot : ¬ ((depth + 1 : Nat) : Int) = 0 := by omega
        rw [outerSeparators, if_neg fun h => hnot h.2]
        exact ih (depth + 1) rfl
    | closes =>
      cases depth with
      | zero => simp only [BranchTurn.step] at hle; omega
      | succ depth => exact ih depth (by simp only [BranchTurn.step]; omega)

/-! ## Results of a search -/

theorem endsOf_eq_ok_iff {separators : List (Found BranchTurn)}
    {separator : Option (Found BranchTurn)} :
    endsOf separators close = .ok (separator, found)
      ↔ separators = separator.toList ∧ close = some found := by
  match separators, close, separator with
  | [], none, _ | [_], none, _ | _ :: _ :: _, _, none | _ :: _ :: _, _, some _ => simp [endsOf]
  | [], some _, none | [], some _, some _ | [_], some _, none | [_], some _, some _ =>
    simp [endsOf]

theorem endsOf_eq_duplicate_iff {separators : List (Found BranchTurn)} :
    endsOf separators close = .error .duplicateElse ↔ 1 < separators.length := by
  match separators, close with
  | [], none | [], some _ | [_], none | [_], some _ | _ :: _ :: _, _ => simp [endsOf]

theorem endsOf_eq_notClosed_iff {separators : List (Found BranchTurn)} :
    endsOf separators close = .error .notClosed ↔ close = none ∧ ¬ 1 < separators.length := by
  match separators, close with
  | [], none | [], some _ | [_], none | [_], some _ | _ :: _ :: _, _ => simp [endsOf]

section
variable (hplaces : reach.Pairwise fun a b => a.start < b.start)

include hplaces in
theorem hasTwoSeparators_iff : HasTwoSeparators reach ↔ 1 < (outerSeparators 0 reach).length := by
  have houter := hplaces.sublist (outerSeparators_sublist 0 reach)
  simp only [HasTwoSeparators, ← mem_outerSeparators_zero_iff]
  generalize outerSeparators 0 reach = separators at houter
  match separators with
  | [] | [_] => simp
  | a :: b :: more =>
    have hlt := (List.pairwise_cons.1 houter).1 b List.mem_cons_self
    exact iff_of_true ⟨a, b, List.mem_cons_self, List.mem_cons_of_mem a List.mem_cons_self, hlt⟩
      (Nat.succ_lt_succ (Nat.zero_lt_succ _))

include hplaces in
theorem outerSeparators_eq_iff {separator : Option (Found BranchTurn)} :
    outerSeparators 0 reach = separator.toList
      ↔ ∀ found, separator = some found ↔ IsOuterSeparator reach found := by
  have houter := hplaces.sublist (outerSeparators_sublist 0 reach)
  simp only [← mem_outerSeparators_zero_iff]
  generalize outerSeparators 0 reach = separators at houter
  constructor
  · rintro rfl found
    exact Option.mem_toList.symm
  · intro h
    -- two of them would be one and the same, but start at different places
    match separators with
    | [] =>
      cases separator with
      | none => rfl
      | some found => exact nomatch (h found).1 rfl
    | [a] => rw [(h a).2 List.mem_cons_self, Option.toList_some]
    | a :: b :: more =>
      have ha := (h a).2 List.mem_cons_self
      have hb := (h b).2 (List.mem_cons_of_mem a List.mem_cons_self)
      have hlt := (List.pairwise_cons.1 houter).1 b List.mem_cons_self
      obtain rfl : a = b := Option.some.inj (ha.symm.trans hb)
      exact absurd hlt (Nat.lt_irrefl _)

end

section
variable (hplaces : founds.Pairwise fun a b => a.start < b.start)

include hplaces in
theorem branchEnds_eq_ok_iff {separator : Option (Found BranchTurn)} :
    branchEnds 0 none founds = .ok (separator, found)
      ↔ ∃ before, EndsAfter BranchTurn.step 0 founds before found
        ∧ ∀ other, separator = some other ↔ IsOuterSeparator before other := by
  obtain ⟨reach, close, hgoes⟩ := exists_goesOver BranchTurn.step 0 founds
  have hbefore := hplaces.sublist hgoes.isPrefix.sublist
  rw [branchEnds_of_goesOver 0 hgoes, endsOf_eq_ok_iff]
  constructor
  · rintro ⟨hseparators, rfl⟩
    exact ⟨reach, (GoesOver.some_iff BranchTurn.neg_one_le_step).1 hgoes,
      (outerSeparators_eq_iff hbefore).1 hseparators⟩
  · rintro ⟨before, hends, hseparator⟩
    obtain ⟨rfl, rfl⟩ := hgoes.unique hends.goesOver
    exact ⟨(outerSeparators_eq_iff hbefore).2 hseparator, rfl⟩

include hplaces in
theorem branchEnds_eq_duplicate_iff :
    branchEnds 0 none founds = .error .duplicateElse
      ↔ ∃ reach, IsReach BranchTurn.step founds reach ∧ HasTwoSeparators reach := by
  obtain ⟨reach, close, hgoes⟩ := exists_goesOver BranchTurn.step 0 founds
  have hbefore := hplaces.sublist hgoes.isPrefix.sublist
  rw [branchEnds_of_goesOver 0 hgoes, endsOf_eq_duplicate_iff]
  constructor
  · intro hlength
    exact ⟨reach, (isReach_iff BranchTurn.neg_one_le_step).2 ⟨close, hgoes⟩,
      (hasTwoSeparators_iff hbefore).2 hlength⟩
  · rintro ⟨reach', hreach', htwo⟩
    obtain ⟨close', hgoes'⟩ := (isReach_iff BranchTurn.neg_one_le_step).1 hreach'
    obtain ⟨rfl, -⟩ := hgoes.unique hgoes'
    exact (hasTwoSeparators_iff hbefore).1 htwo

include hplaces in
theorem branchEnds_eq_notClosed_iff :
    branchEnds 0 none founds = .error .notClosed
      ↔ (∀ close, ¬ EndsAt BranchTurn.step founds close) ∧ ¬ HasTwoSeparators founds := by
  obtain ⟨reach, close, hgoes⟩ := exists_goesOver BranchTurn.step 0 founds
  rw [branchEnds_of_goesOver 0 hgoes, endsOf_eq_notClosed_iff]
  constructor
  · rintro ⟨rfl, hlength⟩
    obtain rfl := hgoes.eq_of_none
    exact ⟨hgoes.not_endsAt, mt (hasTwoSeparators_iff hplaces).1 hlength⟩
  · rintro ⟨hnot, htwo⟩
    cases close with
    | some close =>
      exact absurd ⟨reach, (GoesOver.some_iff BranchTurn.neg_one_le_step).1 hgoes⟩ (hnot close)
    | none =>
      obtain rfl := hgoes.eq_of_none
      exact ⟨rfl, mt (hasTwoSeparators_iff hplaces).2 htwo⟩

end

end

/-! ## Constructs without an end -/

/-- What is wrong with a conditional, given as it is written. -/
def BranchError.compileError : BranchError → String → CompileError
  | .notClosed => .conditionNotClosed
  | .duplicateElse => .duplicateElse

section
variable {code : List Char} {lineStart : Bool} {opener : Found Marker}

theorem loopAt_eq_notClosed_iff {header : List Char} :
    loopAt code lineStart opener header
        = .error (.loopNotClosed (String.ofList (slice code opener.start opener.stop)))
      ↔ header ≠ [] ∧ loopEnd? opener.stop (code.drop opener.stop) = none := by
  unfold loopAt
  cases header with
  | nil => simp
  | cons c header =>
    cases loopEnd? opener.stop (code.drop opener.stop) with
    | none => simp
    | some close => cases LoopHeader.parse? (c :: header) <;> simp

/-- What is wrong with the markers of a conditional is its error, unless it has no condition. -/
theorem conditionalAt_eq_error_iff {condition : List Char} (e : BranchError) :
    conditionalAt code lineStart opener condition
        = .error (e.compileError (String.ofList (slice code opener.start opener.stop)))
      ↔ condition ≠ [] ∧ ifEnds opener.stop (code.drop opener.stop) = .error e := by
  unfold conditionalAt
  cases condition with
  | nil => cases e <;> simp [BranchError.compileError]
  | cons c condition =>
    cases ifEnds opener.stop (code.drop opener.stop) with
    | error e' => cases e' <;> cases e <;> simp [BranchError.compileError]
    | ok ends =>
      obtain ⟨separator, close⟩ := ends
      unfold Condition.parse
      cases postfix? (Token.scan (c :: condition)) <;> cases e <;> simp [BranchError.compileError]

end

/-- The end of a construct is the marker of its kind, and of its name if it is a block, up to which
    the markers of the kind balance and never close more than they open. The search fails exactly if
    there is none. What separates the branches of a conditional is the only such marker before the
    end that is within no other conditional. Two of them are an error, before the end, or in all of
    the text if there is no end. The errors name the opening marker. -/
theorem ends_areBalanced (code : List Char) (lineStart : Bool) (pos : Nat) :
    (∀ name, ∃ founds, AreMarkersFrom (turnOfBlock name) code pos founds
      ∧ (∀ close, blockEnd? name pos (code.drop pos) = some close ↔ EndsAt Turn.step founds close)
      ∧ (blockEnd? name pos (code.drop pos) = none ↔ ∀ close, ¬ EndsAt Turn.step founds close))
    ∧ (∃ founds, AreMarkersFrom turnOfLoop code pos founds
      ∧ (∀ close, loopEnd? pos (code.drop pos) = some close ↔ EndsAt Turn.step founds close)
      ∧ (loopEnd? pos (code.drop pos) = none ↔ ∀ close, ¬ EndsAt Turn.step founds close)
      ∧ ∀ start header, loopAt code lineStart ⟨start, pos, .loopBegin header⟩ header
            = .error (.loopNotClosed (String.ofList (slice code start pos)))
          ↔ header ≠ [] ∧ loopEnd? pos (code.drop pos) = none)
    ∧ ∃ founds, AreMarkersFrom turnOfBranch code pos founds
      ∧ (∀ separator close, ifEnds pos (code.drop pos) = .ok (separator, close)
          ↔ ∃ before, EndsAfter BranchTurn.step 0 founds before close
            ∧ ∀ found, separator = some found ↔ IsOuterSeparator before found)
      ∧ (ifEnds pos (code.drop pos) = .error .duplicateElse
          ↔ ∃ reach, IsReach BranchTurn.step founds reach ∧ HasTwoSeparators reach)
      ∧ (ifEnds pos (code.drop pos) = .error .notClosed
          ↔ (∀ close, ¬ EndsAt BranchTurn.step founds close) ∧ ¬ HasTwoSeparators founds)
      ∧ ∀ start condition e, conditionalAt code lineStart ⟨start, pos, .ifBegin condition⟩ condition
            = .error (BranchError.compileError e (String.ofList (slice code start pos)))
          ↔ condition ≠ [] ∧ ifEnds pos (code.drop pos) = .error e := by
  -- each search goes over all markers of its kind
  refine ⟨fun name => ?_, ?_, ?_⟩
  · refine ⟨_, areMarkersFrom_findAll (turnOfBlock name) code pos, ?_⟩
    rw [blockEnd?, blockTurn?_eq_markerAs]
    exact ⟨fun close => closing?_eq_some_iff, closing?_eq_none_iff⟩
  · refine ⟨_, areMarkersFrom_findAll turnOfLoop code pos, ?_, ?_, fun start header => ?_⟩
    · rw [loopEnd?, loopTurn?_eq_markerAs]
      exact fun close => closing?_eq_some_iff
    · rw [loopEnd?, loopTurn?_eq_markerAs]
      exact closing?_eq_none_iff
    · exact loopAt_eq_notClosed_iff
  · have hmarkers := areMarkersFrom_findAll turnOfBranch code pos
    have hplaces := hmarkers.pairwise_start
    refine ⟨_, hmarkers, ?_, ?_, ?_, fun start condition e => conditionalAt_eq_error_iff e⟩
    · rw [ifEnds, branchTurn?_eq_markerAs]
      exact fun separator close => branchEnds_eq_ok_iff hplaces
    · rw [ifEnds, branchTurn?_eq_markerAs]
      exact branchEnds_eq_duplicate_iff hplaces
    · rw [ifEnds, branchTurn?_eq_markerAs]
      exact branchEnds_eq_notClosed_iff hplaces

/-- A loop whose header has the end of another one in it is a loop within. -/
example :
    (loopEnd? 0 "<!-- FOR a <!-- ENDFOR --><!-- ENDFOR --><!-- ENDFOR -->".toList).map Found.start
      = some 41 := by decide

end BlockTemplate
