import Mathlib
import BlockTemplate.Proofs.Markup.RespacedSearch

/-!
# Constructs in respaced texts

A settled text and a respaced version of it have the same constructs: of the same kinds, with the
same names, the same loops and the same tokens of conditions, and with bodies that are respaced. On
which line a marker stands may change, but only gaps belong to a marker besides its comment.

## Key results

- `nextConstruct?_respaced`: the first construct behind corresponding positions
-/

namespace BlockTemplate

/-! ## Extents -/

/-- The extent of a marker has only gaps in it besides the marker. -/
theorem corresponds_markerSpan {code : List Char} {start : Nat} (hstart : start ≤ code.length)
    (stop : Nat) (lineStart : Bool) :
    Corresponds code code (markerSpan code start stop lineStart).1 start
      ∧ Corresponds code code (markerSpan code start stop lineStart).2 stop := by
  obtain hspan | ⟨size, hsize, hspan⟩ := markerSpan_cases code start stop lineStart
  · rw [hspan]
    exact ⟨rfl, rfl⟩
  · rw [hspan]
    constructor
    · have hindent : IsGap (slice code (start - indentBefore code start) start) :=
        fun c hc => isSpacing_of_isIndent (isIndent_of_mem_slice hstart c hc)
      have htake : code.take (start - indentBefore code start)
            ++ slice code (start - indentBefore code start) start = code.take start :=
        take_append_slice (Nat.sub_le _ _)
      rw [Corresponds, ← htake, solidCount_append, hindent.solidCount_eq, Nat.add_zero]
    · obtain ⟨blanks, ending, rest, hrest, hlength, hblanks, hending, -, -⟩ :=
        exists_line_of_restOfLine? hsize
      have hline : IsGap (blanks ++ ending) :=
        isGap_append.2 ⟨fun c hc => isSpacing_of_isIndent (hblanks c hc),
          fun c hc => isSpacing_of_isLineEnd (hending c hc)⟩
      rw [Corresponds, solidCount_take_add, hrest, hlength, List.take_left, hline.solidCount_eq,
        Nat.add_zero]

section
variable {code code' : List Char}

/-- The extents of corresponding markers have corresponding ends. -/
theorem Found.Agrees.span {α : Type} {R : α → α → Prop} {found found' : Found α}
    (h : Found.Agrees R code code' found found') {m m' : Marker}
    (hm : MarkerAt code found.start found.stop m)
    (hm' : MarkerAt code' found'.start found'.stop m') (lineStart lineStart' : Bool) :
    Corresponds code code' (markerSpan code found.start found.stop lineStart).1
        (markerSpan code' found'.start found'.stop lineStart').1
      ∧ Corresponds code code' (markerSpan code found.start found.stop lineStart).2
        (markerSpan code' found'.start found'.stop lineStart').2 := by
  obtain ⟨hfst, hsnd⟩ := corresponds_markerSpan (hm.start_le.trans hm.stop_le) found.stop lineStart
  obtain ⟨hfst', hsnd'⟩ := corresponds_markerSpan (hm'.start_le.trans hm'.stop_le) found'.stop
    lineStart'
  exact ⟨hfst.trans (h.start.trans hfst'.symm), hsnd.trans (h.stop.trans hsnd'.symm)⟩

/-! ## Constructs that agree -/

/-- Whether a body is a respaced version of a settled one. -/
structure Body.Agrees (body body' : Body) : Prop where
  respaced : Respaced looseRule none none body.code body'.code
  settled : isSettled body.code

/-- Whether two constructs are the same, but for respaced bodies and how a condition is written. -/
inductive ConstructKind.Agrees : ConstructKind → ConstructKind → Prop
  | block (name : String) {body body' : Body} (hbody : body.Agrees body') :
      ConstructKind.Agrees (.block name body) (.block name body')
  | loop (header : LoopHeader) {body body' : Body} (hbody : body.Agrees body') :
      ConstructKind.Agrees (.loop header body) (.loop header body')
  | conditional {condition condition' : Condition} {ifBody ifBody' elseBody elseBody' : Body}
      (htokens : condition.tokens = condition'.tokens) (hif : ifBody.Agrees ifBody')
      (helse : elseBody.Agrees elseBody') :
      ConstructKind.Agrees (.conditional condition ifBody elseBody)
        (.conditional condition' ifBody' elseBody')

/-- Whether two constructs agree, with corresponding ends. -/
structure Construct.Agrees (code code' : List Char) (c c' : Construct) : Prop where
  stop : Corresponds code code' c.stop c'.stop
  kind : c.kind.Agrees c'.kind

variable (hs : Respaced looseRule none none code code') (hsettled : isSettled code)
include hs hsettled

theorem bodyAt_agrees {start start' stop stop' : Nat} (hstart : Corresponds code code' start start')
    (hstop : Corresponds code code' stop stop') (lineStart lineStart' : Bool) :
    (bodyAt code lineStart start stop).Agrees (bodyAt code' lineStart' start' stop') where
  respaced := hs.slice hstart hstop
  settled := isSettled_of_isInfix hsettled
    ((List.take_prefix _ _).isInfix.trans (List.drop_suffix _ _).isInfix)

variable {opener opener' : Found Marker}
  (hopener : opener.Agrees Marker.IsRespaced code code' opener') {m m' : Marker}
  (hm : MarkerAt code opener.start opener.stop m)
  (hm' : MarkerAt code' opener'.start opener'.stop m')
include hopener hm hm'

theorem loopAt_respaced {header header' : List Char} (hheader : RespacedContent none header header')
    (hmarker : (Marker.loopBegin header).isSettled) {lineStart : Bool} {c : Construct}
    (h : loopAt code lineStart opener header = .ok c) (lineStart' : Bool) :
    ∃ c', loopAt code' lineStart' opener' header' = .ok c' ∧ c.Agrees code code' c' := by
  have hempty : header = [] ↔ header' = [] := hheader.respaced.eq_nil_iff
  obtain ⟨hne, close, parsed, hclose, hparse, rfl⟩ := loopAt_eq_ok_iff.1 h
  rw [Marker.isSettled, hparse] at hmarker
  have hends := loopEnd?_respaced hs hsettled hopener.stop
  rw [hclose] at hends
  generalize hclose' : loopEnd? opener'.stop (code'.drop opener'.stop) = o at hends
  cases hends with
  | @some _ close' hagrees =>
    have hopen := hopener.span hm hm' lineStart lineStart'
    have hspan := hagrees.span (markerAt_of_loopEnd? hclose).1
      (markerAt_of_loopEnd? hclose').1 lineStart lineStart'
    have hparse' := LoopHeader.parse?_respaced hheader hparse hmarker
    refine ⟨_, loopAt_eq_ok_iff.2 ⟨fun h => hne (hempty.2 h), close', parsed, hclose', hparse',
      rfl⟩, hspan.2, ?_⟩
    exact .loop parsed (bodyAt_agrees hs hsettled hopen.2 hspan.1 _ _)

theorem conditionalAt_respaced {condition condition' : List Char}
    (hcondition : RespacedContent none condition condition')
    (hmarker : (Marker.ifBegin condition).isSettled) {lineStart : Bool} {c : Construct}
    (h : conditionalAt code lineStart opener condition = .ok c) (lineStart' : Bool) :
    ∃ c', conditionalAt code' lineStart' opener' condition' = .ok c' ∧ c.Agrees code code' c' := by
  have hempty : condition = [] ↔ condition' = [] := hcondition.respaced.eq_nil_iff
  obtain ⟨hne, separator, close, parsed, hends, hparse, rfl⟩ := conditionalAt_eq_ok_iff.1 h
  obtain ⟨parsed', hparse', htokens⟩ := parse_respaced hcondition hmarker hparse
  obtain ⟨⟨separator', close'⟩, hends', hseparator, hclose⟩ :=
    ifEnds_respaced hs hsettled hopener.stop hends
  have hopen := hopener.span hm hm' lineStart lineStart'
  obtain ⟨hat, hbetween⟩ := markerAt_of_ifEnds hends
  obtain ⟨hat', hbetween'⟩ := markerAt_of_ifEnds hends'
  have hspan := hclose.span hat.1 hat'.1 lineStart lineStart'
  refine ⟨_, conditionalAt_eq_ok_iff.2 ⟨fun h => hne (hempty.2 h), separator', close', parsed',
    hends', hparse', rfl⟩, hspan.2, ?_⟩
  dsimp only at hseparator ⊢
  -- without a separator the second branch is empty in both texts
  cases hseparator with
  | none =>
    have hnothing : Body.Agrees ⟨[], true⟩ ⟨[], true⟩ :=
      ⟨.last isGap_nil isGap_nil (.inl rfl), by rfl⟩
    exact .conditional htokens.symm (bodyAt_agrees hs hsettled hopen.2 hspan.1 _ _) hnothing
  | @some found found' hfound =>
    have helse := hfound.span (hbetween found rfl).1 (hbetween' found' rfl).1 lineStart
      lineStart'
    exact .conditional htokens.symm (bodyAt_agrees hs hsettled hopen.2 helse.1 _ _)
      (bodyAt_agrees hs hsettled helse.2 hspan.1 _ _)

end

/-! ## The first construct -/

section
variable {code code' : List Char} (hs : Respaced looseRule none none code code')
  (hsettled : isSettled code)
include hs hsettled

theorem constructAt_respaced {opener opener' : Found Marker}
    (hopener : opener.Agrees Marker.IsRespaced code code' opener')
    (hm : MarkerAt code opener.start opener.stop opener.item)
    (hm' : MarkerAt code' opener'.start opener'.stop opener'.item) {lineStart : Bool}
    {o : Option Construct} (h : constructAt code lineStart opener = .ok o) (lineStart' : Bool) :
    ∃ o', constructAt code' lineStart' opener' = .ok o'
      ∧ Option.Rel (Construct.Agrees code code') o o' := by
  have hmarker := hm.isSettled hsettled
  have hitem := hopener.item
  unfold constructAt at h ⊢
  -- the two markers are of one kind, and the same name of a block is looked for in both texts
  generalize opener.item = m, opener'.item = m' at hitem h hmarker
  cases hitem with
  | loopBegin hheader =>
    obtain ⟨c, hc, rfl⟩ := exists_of_map_eq_ok h
    obtain ⟨c', hc', hagrees⟩ :=
      loopAt_respaced hs hsettled hopener hm hm' hheader hmarker hc lineStart'
    exact ⟨some c', congrArg (Except.map some) hc', .some hagrees⟩
  | ifBegin hcondition =>
    obtain ⟨c, hc, rfl⟩ := exists_of_map_eq_ok h
    obtain ⟨c', hc', hagrees⟩ :=
      conditionalAt_respaced hs hsettled hopener hm hm' hcondition hmarker hc lineStart'
    exact ⟨some c', congrArg (Except.map some) hc', .some hagrees⟩
  | blockBegin name =>
    have hends := blockEnd?_respaced hs hsettled hopener.stop name
    dsimp only at h ⊢
    generalize hclose : blockEnd? name opener.stop (code.drop opener.stop) = close,
      hclose' : blockEnd? name opener'.stop (code'.drop opener'.stop) = close' at hends h
    cases hends with
    | none =>
      cases h
      exact ⟨none, rfl, .none⟩
    | some hagrees =>
      cases h
      have hopen := hopener.span hm hm' lineStart lineStart'
      have hspan := hagrees.span (markerAt_of_blockEnd? hclose).1 (markerAt_of_blockEnd? hclose').1
        lineStart lineStart'
      exact ⟨_, rfl, .some ⟨hspan.2, .block _ (bodyAt_agrees hs hsettled hopen.2 hspan.1 _ _)⟩⟩
  | _ =>
    cases h
    exact ⟨none, rfl, .none⟩

theorem nextConstruct?_respaced {pos pos' : Nat} (hpos : Corresponds code code' pos pos')
    {lineStart : Bool} {o : Option Construct} (h : nextConstruct? code lineStart pos = .ok o)
    (lineStart' : Bool) :
    ∃ o', nextConstruct? code' lineStart' pos' = .ok o'
      ∧ Option.Rel (Construct.Agrees code code') o o' := by
  have hfind := find?_respaced hs hsettled hpos isStable_opener?
  rw [nextConstruct?] at h ⊢
  generalize hopener : find? opener? pos (code.drop pos) = opener,
    hopener' : find? opener? pos' (code'.drop pos') = opener' at hfind h
  cases hfind with
  | none =>
    cases h
    exact ⟨none, rfl, .none⟩
  | some hagrees =>
    exact constructAt_respaced hs hsettled hagrees (markerAt_of_find?_opener? hopener).1
      (markerAt_of_find?_opener? hopener').1 h lineStart'

/-- Behind corresponding positions there is no construct in either text, -/
theorem nextConstruct?_respaced_none {pos pos' : Nat} (hpos : Corresponds code code' pos pos')
    {lineStart : Bool} (h : nextConstruct? code lineStart pos = .ok none) (lineStart' : Bool) :
    nextConstruct? code' lineStart' pos' = .ok none := by
  obtain ⟨o', ho', hrel⟩ := nextConstruct?_respaced hs hsettled hpos h lineStart'
  cases hrel
  exact ho'

/-- or the first ones agree. -/
theorem exists_construct_respaced {pos pos' : Nat} (hpos : Corresponds code code' pos pos')
    {lineStart : Bool} {c : Construct} (h : nextConstruct? code lineStart pos = .ok (some c))
    (lineStart' : Bool) :
    ∃ c', nextConstruct? code' lineStart' pos' = .ok (some c') ∧ c.Agrees code code' c' := by
  obtain ⟨o', ho', hrel⟩ := nextConstruct?_respaced hs hsettled hpos h lineStart'
  cases hrel with
  | some hagrees => exact ⟨_, ho', hagrees⟩

end

end BlockTemplate
