import BlockTemplate.Include
import BlockTemplate.Proofs.Include.Extension
import BlockTemplate.Proofs.Text.Assembly

/-!
# Expansion of includes

Without a limit, a text expands to itself with each directive replaced by what the named file
expands to, or by its path. The expansion with a limit is the same, unless a directive is reached
that is nested deeper: files that include each other are expanded up to there.

## Key results

- `expand_of_expands`: where a text has an expansion, a limit gives it or is exceeded
- `isTooDeep_of_reaches`: a directive below the limit is reported
- `explains_expand`: and nothing else fails, but paths and files that cannot be read
- `expandIncludes_of_rendered`: the expansion of a template, if the paths can be rendered
-/

namespace BlockTemplate

/-! ## What directives are replaced by -/

namespace Includer

variable {i : Includer}

/-- The path that a directive names. -/
def renderedPath (i : Includer) (directive : Directive) : Except RenderError String :=
  renderEmbedded i.context (String.ofList directive.path)

/-- Where the file of a path is looked for. -/
def place (i : Includer) (name : String) : Path := i.folder.join (Path.ofString name)

/-- Whether a directive names a template that there is, with this text. -/
def Includes (i : Includer) (directive : Directive) (text : List Char) : Prop :=
  ∃ name, i.renderedPath directive = .ok name ∧ EndsInTpl name ∧
    i.sources (i.place name) = .ok (some text)

/-- Whether a directive is replaced by its path: it names no template, or one that there is not. -/
def KeepsPath (i : Includer) (directive : Directive) (name : String) : Prop :=
  i.renderedPath directive = .ok name ∧
    (¬ EndsInTpl name ∨ i.sources (i.place name) = .ok none)

/-- Whether a directive names a template that cannot be read. -/
def FailsToRead (i : Includer) (directive : Directive) (e : FileError) : Prop :=
  ∃ name, i.renderedPath directive = .ok name ∧ EndsInTpl name ∧
    i.sources (i.place name) = .error e

/-- A text and what it expands to if directives are replaced however deep they are nested. -/
inductive Expands (i : Includer) : List Char → List Char → Prop where
  | nil : Expands i [] []
  | kept {c : Char} {rest out : List Char} :
    FindsNothing directive? (c :: rest) → Expands i rest out → Expands i (c :: rest) (c :: out)
  | path {s after out : List Char} {directive : Directive} {name : String} :
    Finds directive? s directive after → i.KeepsPath directive name → Expands i after out →
    Expands i s (name.toList ++ out)
  | file {s after text inner out : List Char} {directive : Directive} :
    Finds directive? s directive after → i.Includes directive text → Expands i text inner →
    Expands i after out → Expands i s (inner ++ out)

/-- The directives that the expansion of a text from the left comes to, and their levels. Those of
    the text itself are at the first level, those of an included file one level deeper than the
    directive that includes it. What stands behind a directive is come to when the directive is
    replaced. -/
inductive Reaches (i : Includer) : Nat → List Char → Directive → Prop where
  | here {s after : List Char} {directive : Directive} :
    Finds directive? s directive after → Reaches i 1 s directive
  | inside {level : Nat} {s after text : List Char} {directive inner : Directive} :
    Finds directive? s directive after → i.Includes directive text →
    Reaches i level text inner → Reaches i (level + 1) s inner
  | kept {level : Nat} {c : Char} {rest : List Char} {directive : Directive} :
    FindsNothing directive? (c :: rest) → Reaches i level rest directive →
    Reaches i level (c :: rest) directive
  | behindPath {level : Nat} {s after : List Char} {directive later : Directive}
    {name : String} :
    Finds directive? s directive after → i.KeepsPath directive name →
    Reaches i level after later → Reaches i level s later
  | behindFile {level : Nat} {s after text inner : List Char} {directive later : Directive} :
    Finds directive? s directive after → i.Includes directive text → Expands i text inner →
    Reaches i level after later → Reaches i level s later

/-! ## The steps of the expansion -/

theorem source_of_endsInTpl {name : String} (h : EndsInTpl name) :
    i.source name = i.sources (i.place name) :=
  if_pos ((isTemplateName_iff_endsInTpl name).2 h)

theorem source_of_not_endsInTpl {name : String} (h : ¬ EndsInTpl name) :
    i.source name = .ok none :=
  if_neg (mt (isTemplateName_iff_endsInTpl name).1 h)

/-- What replaces a directive that is not too deep. -/
def replacement (i : Includer) (levels : Nat) (directive : Directive) :
    Except IncludeError (List Char) := do
  let name ← (i.renderedPath directive).mapError .render
  match ← (i.source name).mapError .file with
  | none => pure name.toList
  | some source => i.expand levels source

/-- What replaces a directive, `levels` of them deep. -/
def included (i : Includer) : Nat → Directive → Except IncludeError (List Char)
  | 0, directive => throw (.compile (.includesTooDeep (String.ofList directive.source)))
  | levels + 1, directive => i.replacement levels directive

/-- What a piece of a text gives. -/
def pieceText (i : Includer) (levels : Nat) :
    Piece Directive → Except IncludeError (List Char)
  | .literal chars => pure chars
  | .found directive => i.included levels directive

theorem expand_eq_assemble (i : Includer) (levels : Nat) (code : List Char) :
    i.expand levels code = assemble (i.pieceText levels) (cutPieces directive? code) := by
  rw [expand, assemble]
  congr 2
  funext piece
  cases piece with
  | literal chars => rfl
  | found directive => cases levels <;> rfl

theorem expand_nil (i : Includer) (levels : Nat) : i.expand levels [] = .ok [] := by
  rw [expand_eq_assemble, cutPieces, cutPiecesFrom]
  rfl

theorem expand_of_findsNothing {levels : Nat} {c : Char} {rest : List Char}
    (h : FindsNothing directive? (c :: rest)) :
    i.expand levels (c :: rest) = (i.expand levels rest).map (c :: ·) := by
  rw [expand_eq_assemble, expand_eq_assemble, assemble_of_findsNothing (fun _ => rfl) h]

theorem expand_of_finds {levels : Nat} {s after : List Char} {directive : Directive}
    (h : Finds directive? s directive after) :
    i.expand levels s =
      i.included levels directive >>= fun first => (i.expand levels after).map (first ++ ·) := by
  rw [expand_eq_assemble, expand_eq_assemble, assemble_of_finds h]
  rfl

theorem included_of_keepsPath {levels : Nat} {directive : Directive} {name : String}
    (h : i.KeepsPath directive name) :
    i.included (levels + 1) directive = .ok name.toList := by
  obtain ⟨hname, hkept⟩ := h
  have hsource : i.source name = .ok none := by
    by_cases hend : EndsInTpl name
    · rw [source_of_endsInTpl hend]
      exact hkept.resolve_left (not_not_intro hend)
    · exact source_of_not_endsInTpl hend
  rw [included, replacement, hname, Except.mapError, ok_bind, hsource]
  rfl

theorem included_of_includes {levels : Nat} {directive : Directive} {text : List Char}
    (h : i.Includes directive text) :
    i.included (levels + 1) directive = i.expand levels text := by
  obtain ⟨name, hname, hend, hsource⟩ := h
  rw [included, replacement, hname, Except.mapError, ok_bind, source_of_endsInTpl hend, hsource]
  rfl

theorem included_of_failsToRead {levels : Nat} {directive : Directive} {e : FileError}
    (h : i.FailsToRead directive e) :
    i.included (levels + 1) directive = .error (.file e) := by
  obtain ⟨name, hname, hend, hsource⟩ := h
  rw [included, replacement, hname, Except.mapError, ok_bind, source_of_endsInTpl hend, hsource]
  rfl

theorem included_of_renderError {levels : Nat} {directive : Directive} {e : RenderError}
    (h : i.renderedPath directive = .error e) :
    i.included (levels + 1) directive = .error (.render e) := by
  rw [included, replacement, h]
  rfl

/-- A directive whose path can be rendered is replaced by the path or by what a file expands to,
    if the file can be read. -/
theorem named_cases {directive : Directive} {name : String}
    (h : i.renderedPath directive = .ok name) :
    i.KeepsPath directive name ∨ (∃ text, i.Includes directive text) ∨
      ∃ e, i.FailsToRead directive e := by
  by_cases hend : EndsInTpl name
  · cases hsource : i.sources (i.place name) with
    | error e => exact .inr (.inr ⟨e, name, h, hend, hsource⟩)
    | ok found =>
      cases found with
      | none => exact .inl ⟨h, .inr hsource⟩
      | some text => exact .inr (.inl ⟨text, name, h, hend, hsource⟩)
  · exact .inl ⟨h, .inl hend⟩

/-! ## With and without a limit -/

/-- Whether a result is the failure that a directive is nested too deep. -/
def IsTooDeep (result : Except IncludeError (List Char)) : Prop :=
  ∃ e, result = .error (.compile e)

/-- Whether a result is this text, or the failure that a directive is nested too deep. -/
def GivesWithinLimit (out : List Char) (result : Except IncludeError (List Char)) : Prop :=
  result = .ok out ∨ IsTooDeep result

section
variable {first out : List Char} {result others : Except IncludeError (List Char)}

theorem IsTooDeep.bind {next : List Char → Except IncludeError (List Char)}
    (h : IsTooDeep result) : IsTooDeep (result >>= next) := by
  obtain ⟨e, rfl⟩ := h
  exact ⟨e, rfl⟩

theorem IsTooDeep.map {f : List Char → List Char} (h : IsTooDeep result) :
    IsTooDeep (result.map f) := by
  obtain ⟨e, rfl⟩ := h
  exact ⟨e, rfl⟩

theorem GivesWithinLimit.map {f : List Char → List Char} (h : GivesWithinLimit out result) :
    GivesWithinLimit (f out) (result.map f) := by
  rcases h with rfl | h
  · exact .inl rfl
  · exact .inr h.map

theorem GivesWithinLimit.append (h : GivesWithinLimit first result)
    (hothers : GivesWithinLimit out others) :
    GivesWithinLimit (first ++ out) (result >>= fun first => others.map (first ++ ·)) := by
  rcases h with rfl | h
  · exact hothers.map
  · exact .inr h.bind

theorem GivesWithinLimit.isTooDeep_append (h : GivesWithinLimit first result)
    (hothers : IsTooDeep others) :
    IsTooDeep (result >>= fun first => others.map (first ++ ·)) := by
  rcases h with rfl | h
  · exact hothers.map
  · exact h.bind

end

theorem givesWithinLimit_of_keepsPath {directive : Directive} {name : String}
    (h : i.KeepsPath directive name) (levels : Nat) :
    GivesWithinLimit name.toList (i.included levels directive) := by
  cases levels with
  | zero => exact .inr ⟨_, rfl⟩
  | succ levels => exact .inl (included_of_keepsPath h)

theorem givesWithinLimit_of_includes {directive : Directive} {text inner : List Char}
    (h : i.Includes directive text)
    (hinner : ∀ levels, GivesWithinLimit inner (i.expand levels text)) (levels : Nat) :
    GivesWithinLimit inner (i.included levels directive) := by
  cases levels with
  | zero => exact .inr ⟨_, rfl⟩
  | succ levels =>
    rw [included_of_includes h]
    exact hinner levels

/-- Where a text has an expansion, a limit gives it or is exceeded. -/
theorem expand_of_expands {s out : List Char} (h : i.Expands s out) (levels : Nat) :
    GivesWithinLimit out (i.expand levels s) := by
  induction h generalizing levels with
  | nil => exact .inl (expand_nil i levels)
  | kept hnothing _ ih =>
    rw [expand_of_findsNothing hnothing]
    exact (ih levels).map
  | path hfinds hkept _ ih =>
    rw [expand_of_finds hfinds]
    exact (givesWithinLimit_of_keepsPath hkept levels).append (ih levels)
  | file hfinds hincludes _ _ ihInner ihAfter =>
    rw [expand_of_finds hfinds]
    exact (givesWithinLimit_of_includes hincludes ihInner levels).append (ihAfter levels)

/-- A directive that is nested deeper than the limit is reported, if none before it is. -/
theorem isTooDeep_of_reaches {level : Nat} {s : List Char} {directive : Directive}
    (h : i.Reaches level s directive) {levels : Nat} (hlevels : levels < level) :
    IsTooDeep (i.expand levels s) := by
  -- by induction on how the directive is reached: what is expanded before it either is within the
  -- limit or fails itself
  induction h generalizing levels with
  | here hfinds =>
    obtain rfl : levels = 0 := Nat.lt_one_iff.1 hlevels
    rw [expand_of_finds hfinds]
    exact ⟨_, rfl⟩
  | inside hfinds hincludes _ ih =>
    rw [expand_of_finds hfinds]
    cases levels with
    | zero => exact ⟨_, rfl⟩
    | succ levels =>
      rw [included_of_includes hincludes]
      exact (ih (Nat.lt_of_succ_lt_succ hlevels)).bind
  | kept hnothing _ ih =>
    rw [expand_of_findsNothing hnothing]
    exact (ih hlevels).map
  | behindPath hfinds hkept _ ih =>
    rw [expand_of_finds hfinds]
    exact (givesWithinLimit_of_keepsPath hkept levels).isTooDeep_append (ih hlevels)
  | behindFile hfinds hincludes hinner _ ih =>
    rw [expand_of_finds hfinds]
    have hfirst := givesWithinLimit_of_includes hincludes (expand_of_expands hinner) levels
    exact hfirst.isTooDeep_append (ih hlevels)

/-- What the result of an expansion tells of the text: that it expands to it, or which directive it
    failed at. -/
def Explains (i : Includer) (levels : Nat) (s : List Char) :
    Except IncludeError (List Char) → Prop
  | .ok out => i.Expands s out
  | .error (.compile e) => ∃ directive, i.Reaches (levels + 1) s directive ∧
      e = .includesTooDeep (String.ofList directive.source)
  | .error (.render e) => ∃ level ≤ levels, ∃ directive, i.Reaches level s directive ∧
      i.renderedPath directive = .error e
  | .error (.file e) => ∃ level ≤ levels, ∃ directive, i.Reaches level s directive ∧
      i.FailsToRead directive e

/-- A failure in a part of a text is one of the whole text. -/
theorem Explains.of_part {levels : Nat} {s part : List Char} {e : IncludeError}
    (h : i.Explains levels part (.error e)) (deeper : Nat)
    (hreaches : ∀ level directive, i.Reaches level part directive →
      i.Reaches (level + deeper) s directive) : i.Explains (levels + deeper) s (.error e) := by
  cases e with
  | compile cause =>
    obtain ⟨directive, hreached, heq⟩ := h
    refine ⟨directive, ?_, heq⟩
    rw [Nat.add_right_comm]
    exact hreaches _ _ hreached
  | render cause =>
    obtain ⟨level, hle, directive, hreached, heq⟩ := h
    exact ⟨level + deeper, Nat.add_le_add_right hle _, directive, hreaches _ _ hreached, heq⟩
  | file cause =>
    obtain ⟨level, hle, directive, hreached, heq⟩ := h
    exact ⟨level + deeper, Nat.add_le_add_right hle _, directive, hreaches _ _ hreached, heq⟩

/-- What the result of the rest of a text tells of the whole. -/
theorem Explains.map {levels : Nat} {s rest : List Char} {f : List Char → List Char}
    {result : Except IncludeError (List Char)} (h : i.Explains levels rest result)
    (hexpands : ∀ out, i.Expands rest out → i.Expands s (f out))
    (hreaches : ∀ level directive, i.Reaches level rest directive → i.Reaches level s directive) :
    i.Explains levels s (result.map f) := by
  cases result with
  | ok out => exact hexpands out h
  | error e => exact h.of_part 0 hreaches

/-- A text expands to the result of its expansion, or a directive is reached at which it fails. -/
theorem explains_expand (i : Includer) (levels : Nat) (s : List Char) :
    i.Explains levels s (i.expand levels s) := by
  -- by induction on the levels that are left, and within a level along the text
  induction levels using Nat.strongRecOn generalizing s with
  | ind levels ih =>
    induction s using scan_induction directive? with
    | nil =>
      rw [expand_nil]
      exact .nil
    | kept c rest hnothing hrest =>
      rw [expand_of_findsNothing hnothing]
      exact hrest.map (fun _ => .kept hnothing) fun _ _ => .kept hnothing
    | found s directive after hfinds hafter =>
      rw [expand_of_finds hfinds]
      cases levels with
      | zero => exact ⟨directive, .here hfinds, rfl⟩
      | succ levels =>
        cases hname : i.renderedPath directive with
        | error e =>
          rw [included_of_renderError hname]
          exact ⟨1, Nat.succ_le_succ (Nat.zero_le _), directive, .here hfinds, hname⟩
        | ok name =>
          rcases named_cases hname with hkept | ⟨text, hincludes⟩ | ⟨e, hfails⟩
          · rw [included_of_keepsPath hkept, ok_bind]
            exact hafter.map (fun _ => .path hfinds hkept) fun _ _ => .behindPath hfinds hkept
          · have hinner := ih levels (Nat.lt_succ_self _) text
            rw [included_of_includes hincludes]
            cases hresult : i.expand levels text with
            | error e =>
              rw [hresult] at hinner
              exact hinner.of_part 1 fun _ _ => .inside hfinds hincludes
            | ok inner =>
              rw [hresult] at hinner
              rw [ok_bind]
              exact hafter.map (fun _ => .file hfinds hincludes hinner)
                fun _ _ => .behindFile hfinds hincludes hinner
          · rw [included_of_failsToRead hfails]
            exact ⟨1, Nat.succ_le_succ (Nat.zero_le _), directive, .here hfinds, hfails⟩

end Includer

/-! ## The expansion of a template -/

/-- What the directives of a template are replaced with. -/
def includer (config : Config) (callbacks : Registry) (workingDir : Path) (sources : Sources) :
    Includer :=
  ⟨config.includeFolder workingDir, includeContext config callbacks, sources⟩

/-- If the paths of directives can be rendered, a template cannot be compiled for its includes
    exactly if the expansion comes to a directive that is nested too deep. Otherwise the result is
    what the text expands to without a limit, unless a file that is named cannot be read. -/
theorem expandIncludes_of_rendered (config : Config) (callbacks : Registry) (workingDir : Path)
    (sources : Sources) (code : List Char)
    (hrendered : ∀ level ≤ maxIncludeDepth, ∀ directive,
      (includer config callbacks workingDir sources).Reaches level code directive →
      ∃ name, (includer config callbacks workingDir sources).renderedPath directive = .ok name) :
    let i := includer config callbacks workingDir sources
    let result := expandIncludes config callbacks workingDir sources code
    ((∃ e, result = .error (.compile e)) ↔
      ∃ directive, i.Reaches (maxIncludeDepth + 1) code directive) ∧
    ((¬ ∃ directive, i.Reaches (maxIncludeDepth + 1) code directive) →
      (∃ out, result = .ok out ∧ ∀ other, i.Expands code other ↔ other = out) ∨
      ∃ level ≤ maxIncludeDepth, ∃ directive e, i.Reaches level code directive ∧
        i.FailsToRead directive e ∧ result = .error (.file e)) := by
  intro i result
  have hexplains : i.Explains maxIncludeDepth code result := i.explains_expand maxIncludeDepth code
  have hcompile {directive : Directive} (h : i.Reaches (maxIncludeDepth + 1) code directive) :
      ∃ e, result = .error (.compile e) :=
    Includer.isTooDeep_of_reaches h (Nat.lt_succ_self _)
  refine ⟨⟨?_, fun ⟨directive, h⟩ => hcompile h⟩, fun hnone => ?_⟩
  · rintro ⟨e, he⟩
    rw [he] at hexplains
    exact hexplains.imp fun _ h => h.1
  · cases hresult : result with
    | ok out =>
      rw [hresult] at hexplains
      refine .inl ⟨out, rfl, fun other => ⟨fun hother => ?_, fun heq => heq ▸ hexplains⟩⟩
      rcases Includer.expand_of_expands hother maxIncludeDepth with h | ⟨e, h⟩
      · exact Except.ok.inj (h.symm.trans hresult)
      · exact nomatch h.symm.trans hresult
    | error e =>
      rw [hresult] at hexplains
      cases e with
      | compile cause => exact absurd (hexplains.imp fun _ h => h.1) hnone
      -- paths can all be rendered, so that this error does not occur
      | render cause =>
        obtain ⟨level, hle, directive, hreached, hfails⟩ := hexplains
        obtain ⟨name, hname⟩ := hrendered level hle directive hreached
        exact nomatch hname.symm.trans hfails
      | file cause =>
        obtain ⟨level, hle, directive, hreached, hfails⟩ := hexplains
        exact .inr ⟨level, hle, directive, cause, hreached, hfails, rfl⟩

/-! ### A file that includes itself -/

/-- The text of a file that includes itself behind one character. -/
def cyclicText : List Char := "x\x7bFILE 'loop.tpl'\x7d".toList

/-- The directive in the text. -/
def cyclicDirective : Directive := ⟨"\x7bFILE 'loop.tpl'\x7d".toList, "loop.tpl".toList⟩

/-- A folder with this file only. -/
def cyclicSources : Sources :=
  fun path => .ok (if path = Path.ofString "/tpl/loop.tpl" then some cyclicText else none)

/-- What replaces the directives of the text, and of the file. -/
def cyclicIncluder : Includer := includer {} ⟨[]⟩ (Path.ofString "/tpl") cyclicSources

theorem finds_cyclicDirective : Finds directive? cyclicText.tail cyclicDirective [] :=
  ⟨by decide +kernel, by decide⟩

theorem findsNothing_cyclicText : FindsNothing directive? cyclicText := by
  rintro directive after ⟨hfound, -⟩
  exact nomatch hfound.symm.trans (by decide +kernel : directive? cyclicText = none)

theorem renderedPath_cyclicDirective :
    cyclicIncluder.renderedPath cyclicDirective = .ok "loop.tpl" := by
  have hchunks : embeddedChunks (String.ofList cyclicDirective.path) = [.literal "loop.tpl"] := by
    cbv
  rw [Includer.renderedPath, renderEmbedded, chunksText, hchunks, renderChunks, renderChunks]
  rfl

theorem includes_cyclicDirective : cyclicIncluder.Includes cyclicDirective cyclicText :=
  ⟨"loop.tpl", renderedPath_cyclicDirective, ⟨"loop".toList, ".tpl".toList, by decide, by decide⟩,
    congrArg Except.ok (if_pos (by decide +kernel))⟩

theorem reaches_cyclicDirective (level : Nat) :
    cyclicIncluder.Reaches (level + 1) cyclicText cyclicDirective := by
  refine .kept findsNothing_cyclicText ?_
  induction level with
  | zero => exact .here finds_cyclicDirective
  | succ level ih =>
    exact .inside finds_cyclicDirective includes_cyclicDirective (.kept findsNothing_cyclicText ih)

theorem eq_of_finds_cyclicText {directive : Directive} {s after : List Char}
    (hs : s = cyclicText ∨ s = cyclicText.tail ∨ s = []) (h : Finds directive? s directive after) :
    directive = cyclicDirective ∧ after = [] := by
  rcases hs with rfl | rfl | rfl
  · exact absurd h (findsNothing_cyclicText _ _)
  · exact Prod.ext_iff.1 (Option.some.inj (h.1.symm.trans finds_cyclicDirective.1))
  · exact nomatch h.2

theorem eq_of_reaches_cyclicText {level : Nat} {s : List Char} {directive : Directive}
    (h : cyclicIncluder.Reaches level s directive)
    (hs : s = cyclicText ∨ s = cyclicText.tail ∨ s = []) : directive = cyclicDirective := by
  induction h with
  | here hfinds => exact (eq_of_finds_cyclicText hs hfinds).1
  | inside hfinds hincludes _ ih =>
    obtain ⟨name, -, -, hsource⟩ := hincludes
    refine ih (.inl ?_)
    have hfound := Except.ok.inj hsource
    split at hfound
    · exact (Option.some.inj hfound).symm
    · exact nomatch hfound
  | kept hnothing _ ih =>
    refine ih (.inr (.inl ?_))
    rcases hs with hs | hs | hs
    · rw [← hs, List.tail_cons]
    · exact absurd finds_cyclicDirective (hs ▸ hnothing _ _)
    · exact nomatch hs
  | behindPath hfinds _ _ ih => exact ih (.inr (.inr (eq_of_finds_cyclicText hs hfinds).2))
  | behindFile hfinds _ _ _ ih => exact ih (.inr (.inr (eq_of_finds_cyclicText hs hfinds).2))

/-- A file that includes itself cannot be compiled. -/
theorem expandIncludes_of_rendered_of_cycle :
    (∀ level ≤ maxIncludeDepth, ∀ directive, cyclicIncluder.Reaches level cyclicText directive →
      ∃ name, cyclicIncluder.renderedPath directive = .ok name) ∧
    ∃ e, expandIncludes {} ⟨[]⟩ (Path.ofString "/tpl") cyclicSources cyclicText =
      .error (.compile e) := by
  have hrendered : ∀ level ≤ maxIncludeDepth, ∀ directive,
      cyclicIncluder.Reaches level cyclicText directive →
      ∃ name, cyclicIncluder.renderedPath directive = .ok name := by
    intro level _ directive h
    rw [eq_of_reaches_cyclicText h (.inl rfl)]
    exact ⟨"loop.tpl", renderedPath_cyclicDirective⟩
  refine ⟨hrendered, ?_⟩
  exact (expandIncludes_of_rendered {} ⟨[]⟩ _ cyclicSources cyclicText hrendered).1.2
    ⟨cyclicDirective, reaches_cyclicDirective maxIncludeDepth⟩

end BlockTemplate
