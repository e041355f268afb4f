import BlockTemplate.Proofs.Template.Index
import BlockTemplate.Session.Basic

/-!
# Blocks of a session by their names

A session finds a block by its full name in the index of its template. In the session of a compiled
template no operation of blocks ever reaches a place that is no block.

## Key results

- `Session.parse_ne_notABlock`, `Session.reset_ne_notABlock`: what a name leads to is a block
- `index_compileTemplate`: the index of a compiled template leads to its blocks
-/

namespace BlockTemplate

namespace Session

variable {s : Session} {block : String}

/-- Whether a name leads to a block, or to nothing. -/
def FindsBlock (s : Session) (block : String) : Prop :=
  s.locate block = .ok none
    ∨ ∃ path name children, s.locate block = .ok (some (path, .node (.block (.text name) children)))

theorem findsBlock_of_compileTemplate {code : List Char}
    (ht : compileTemplate code = .ok s.compiled) (block : String) : s.FindsBlock block := by
  obtain ⟨found, hfound, hblock⟩ := exists_locate ht block
  have hlocate : s.locate block = .ok found := by
    rw [locate, hfound]
    rfl
  cases found with
  | none => exact .inl hlocate
  | some found =>
    obtain ⟨last, children, hplace⟩ := hblock found rfl
    exact .inr ⟨found.1, last, children, by rw [hlocate, ← hplace]⟩

/-- What goes wrong while something is rendered is no such error. -/
theorem run_ne_notABlock {α : Type} (rendering : Rendering α) (operation kind name : String) :
    (s.run rendering).1 ≠ .error (.notABlock operation kind name) := by
  rcases hrun : rendering.run.run s.state with ⟨outcome, state⟩
  rw [run, hrun]
  cases outcome with
  | ok a => exact fun heq => nomatch heq
  | error e => exact fun heq => nomatch heq

theorem parse_ne_notABlock (h : s.FindsBlock block) (operation kind name : String) :
    (s.parse block).1 ≠ .error (.notABlock operation kind name) := by
  obtain hnone | ⟨path, last, children, hsome⟩ := h
  · rw [parse, hnone]
    exact fun heq => nomatch heq
  · rw [parse, hsome]
    dsimp only
    split
    · exact fun heq => nomatch heq
    · rename_i e _ hrun
      intro heq
      refine run_ne_notABlock (s := s) (parseBlock s.host path children) operation kind name ?_
      rw [hrun]
      exact heq

theorem reset_ne_notABlock (h : s.FindsBlock block) (operation kind name : String) :
    s.reset block ≠ .error (.notABlock operation kind name) := by
  obtain hnone | ⟨path, last, children, hsome⟩ := h
  · rw [reset, hnone]
    exact fun heq => nomatch heq
  · rw [reset, hsome]
    exact fun heq => nomatch heq

end Session

/-- The index of a compiled template leads to its blocks. Every entry is the full name of its path,
    which ends at a block of its last name or at nothing, so that no operation of blocks fails for
    want of a block. If no two blocks have one full name, the index lists all blocks in the order of
    the text, and each name leads to its own block. -/
theorem index_compileTemplate {code : List Char} {t : CompiledTemplate}
    (ht : compileTemplate code = .ok t) :
    (∀ entry ∈ t.index, ∃ path last, IsIndexed entry path last
      ∧ ∃ found, t.locate entry.1 = .ok found ∧ ∀ block ∈ found, block.2.IsBlock last)
    ∧ (∀ s : Session, s.compiled = t → ∀ block operation kind name,
      (s.parse block).1 ≠ .error (.notABlock operation kind name)
        ∧ s.reset block ≠ .error (.notABlock operation kind name))
    ∧ ∃ parts, templateParts code = .ok parts
      ∧ ((fullNames (partsBlocks [] 0 parts)).Nodup →
        t.index = (partsBlocks [] 0 parts).map (fun b => (fullName b.1, b.1.map Key.toJson))
          ∧ childrenBlocks [] t.blocks = partsBlocks [] 0 parts
          ∧ ∀ block ∈ partsBlocks [] 0 parts,
            t.locate (fullName block.1) = .ok (some (block.1, .node block.2))) := by
  refine ⟨fun entry hentry => exists_locate_of_mem_index ht hentry, ?_, ?_⟩
  · rintro s rfl block operation kind name
    have hfinds := Session.findsBlock_of_compileTemplate ht block
    exact ⟨Session.parse_ne_notABlock hfinds operation kind name,
      Session.reset_ne_notABlock hfinds operation kind name⟩
  · obtain ⟨parts, hparts, hblocks, hindex⟩ := exists_parts_of_compileTemplate ht
    exact ⟨parts, hparts, index_of_nodup hblocks hindex⟩

/-- A template with a block in either branch of a conditional. -/
def branchedSource : List Char :=
  "<!-- BEGIN: A -->a<!-- IF x --><!-- BEGIN: B --><!-- END: B -->".toList
    ++ "<!-- ELSE -->y<!-- BEGIN: C --><!-- END: C --><!-- ENDIF --><!-- END: A -->".toList

set_option maxRecDepth 4000 in
/-- The way to a block in a branch leads through the conditional and the branch. -/
theorem index_compileTemplate_of_branches :
    ∃ t parts, compileTemplate branchedSource = .ok t ∧ templateParts branchedSource = .ok parts
      ∧ fullNames (partsBlocks [] 0 parts) = ["A", "A.B", "A.C"]
      ∧ t.index = (partsBlocks [] 0 parts).map (fun b => (fullName b.1, b.1.map Key.toJson))
      ∧ childrenBlocks [] t.blocks = partsBlocks [] 0 parts
      ∧ ∀ block ∈ partsBlocks [] 0 parts,
        t.locate (fullName block.1) = .ok (some (block.1, .node block.2)) := by
  have hcompiled : (compileTemplate branchedSource).map (fun t => t.index.map (·.1))
      = .ok ["A", "A.B", "A.C"] := by cbv
  have hnames : (templateParts branchedSource).map (fun parts => fullNames (partsBlocks [] 0 parts))
      = .ok ["A", "A.B", "A.C"] := by cbv
  obtain ⟨t, ht, -⟩ := exists_of_map_eq_ok hcompiled
  obtain ⟨-, -, parts, hparts, hnodup⟩ := index_compileTemplate ht
  rw [hparts] at hnames
  have hnames : fullNames (partsBlocks [] 0 parts) = ["A", "A.B", "A.C"] := Except.ok.inj hnames
  exact ⟨t, parts, ht, hparts, hnames, hnodup (by rw [hnames]; decide)⟩

end BlockTemplate
