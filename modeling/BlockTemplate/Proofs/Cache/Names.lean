import BlockTemplate.Cache.Basic
import BlockTemplate.Session.Open

/-!
# Names of cached files

What follows the last underscore in the name of a cached file is the digest of the source, and
behind it, each behind a dot, the extension of the source and those of the cache. From it the digest
can be told, and whether the file holds tag names, unless the extension of a source has an
underscore in it or is the one that the cache puts behind the files of tag names.

## Key results

- `lastLabels_fileName`: the digest and the extensions are read back from the name
- `eq_of_fileName_eq`: files of one name belong to one digest
-/

namespace BlockTemplate

/-! ## Pieces between separators -/

theorem splitAtChar_of_not_mem {c : Char} {s : List Char} (h : c ∉ s) : splitAtChar c s = [s] := by
  induction s with
  | nil => rfl
  | cons x rest ih =>
    rw [List.mem_cons, not_or] at h
    rw [splitAtChar, if_neg (Ne.symm h.1), ih h.2]

theorem splitAtChar_append_cons {c : Char} {s : List Char} (h : c ∉ s) (rest : List Char) :
    splitAtChar c (s ++ c :: rest) = s :: splitAtChar c rest := by
  induction s with
  | nil => rw [List.nil_append, splitAtChar, if_pos rfl]
  | cons x s ih =>
    rw [List.mem_cons, not_or] at h
    rw [List.cons_append, splitAtChar, if_neg (Ne.symm h.1), ih h.2]

/-- Extensions, each of them behind a dot. -/
def dotted (extensions : List (List Char)) : List Char := extensions.flatMap ('.' :: ·)

theorem dotted_append (first second : List (List Char)) :
    dotted (first ++ second) = dotted first ++ dotted second :=
  List.flatMap_append

theorem splitAtChar_dotted {s : List Char} (hs : '.' ∉ s) {extensions : List (List Char)}
    (h : ∀ e ∈ extensions, '.' ∉ e) :
    splitAtChar '.' (s ++ dotted extensions) = s :: extensions := by
  induction extensions generalizing s with
  | nil =>
    rw [dotted, List.flatMap_nil, List.append_nil]
    exact splitAtChar_of_not_mem hs
  | cons e rest ih =>
    rw [List.forall_mem_cons] at h
    rw [dotted, List.flatMap_cons, List.cons_append, splitAtChar_append_cons hs]
    exact congrArg (s :: ·) (ih h.1 h.2)

/-- What follows the last underscore of a name, in pieces between dots. -/
def lastLabels (name : List Char) : List (List Char) :=
  splitAtChar '.' (name.reverse.takeWhile (· != '_')).reverse

theorem lastLabels_append {s rest : List Char} (h : '_' ∉ rest) :
    lastLabels (s ++ '_' :: rest) = splitAtChar '.' rest := by
  have hrest : ∀ c ∈ rest.reverse, (c != '_') = true := by
    intro c hc
    rw [bne_iff_ne]
    rintro rfl
    exact h (List.mem_reverse.1 hc)
  rw [lastLabels, List.reverse_append, List.reverse_cons, List.append_assoc,
    List.takeWhile_append_of_pos hrest]
  simp

/-! ## Digests -/

/-- The digits of a digest. -/
def digestDigits : List Char := "0123456789abcdef".toList

theorem mem_digestDigits_of_mem_toDigits {c : Char} {n : Nat} (h : c ∈ Nat.toDigits 16 n) :
    c ∈ digestDigits := by
  have hdigit : ∀ k < 16, Nat.digitChar k ∈ digestDigits := by decide
  induction n using Nat.strongRecOn with
  | ind n ih =>
    rw [Nat.toDigits_eq_if (by decide)] at h
    split at h
    · rename_i hn
      rw [List.mem_singleton.1 h]
      exact hdigit n hn
    · rename_i hn
      rcases List.mem_append.1 h with h | h
      · exact ih (n / 16) (Nat.div_lt_self (by omega) (by decide)) h
      · rw [List.mem_singleton.1 h]
        exact hdigit _ (Nat.mod_lt n (by decide))

theorem mem_digestDigits_of_mem_hashOf {code : List Char} {c : Char}
    (h : c ∈ (Engine.hashOf code).toList) : c ∈ digestDigits := by
  rw [Engine.hashOf, Sha1.ofText, String.toList_ofList] at h
  obtain ⟨word, -, h⟩ := List.mem_flatMap.1 h
  rcases List.mem_append.1 h with h | h
  · rw [List.eq_of_mem_replicate h]
    decide
  · exact mem_digestDigits_of_mem_toDigits h

theorem underscore_not_mem_hashOf (code : List Char) : '_' ∉ (Engine.hashOf code).toList :=
  fun h => absurd (mem_digestDigits_of_mem_hashOf h) (by decide)

theorem dot_not_mem_hashOf (code : List Char) : '.' ∉ (Engine.hashOf code).toList :=
  fun h => absurd (mem_digestDigits_of_mem_hashOf h) (by decide)

/-! ## Extensions -/

/-- Whether the extension of a source is told apart from those that the cache puts behind names. -/
def Path.HasOwnExtension (p : Path) : Prop := p.suffix ≠ ".tags" ∧ '_' ∉ p.suffix.toList

instance (p : Path) : Decidable p.HasOwnExtension := inferInstanceAs (Decidable (_ ∧ _))

/-- A path has one extension at most, and no dot is in it. -/
theorem exists_extension (p : Path) :
    ∃ extensions : List (List Char), p.suffix.toList = dotted extensions ∧ extensions.length ≤ 1
      ∧ ∀ e ∈ extensions, '.' ∉ e := by
  rw [Path.suffix, String.toList_ofList, Path.suffixOf]
  split
  · exact ⟨[], rfl, Nat.zero_le 1, List.forall_mem_nil _⟩
  · refine ⟨[_], (List.append_nil _).symm, Nat.le_refl 1, ?_⟩
    refine List.forall_mem_singleton.2 fun hdot => ?_
    have hne := List.all_eq_true.1 List.all_takeWhile _ (List.mem_reverse.1 hdot)
    exact absurd hne (by decide)

/-- A file of a cached template. -/
inductive ArtifactPart where
  | tree
  | index
  | tags
deriving DecidableEq

namespace ArtifactPart

/-- What the cache puts behind the name of the file. -/
def extensions : ArtifactPart → List (List Char)
  | tree => []
  | index => ["idx".toList]
  | tags => ["tags".toList]

/-- The name of the file, or of the draft that is moved to it. -/
def fileName (part : ArtifactPart) (source : Path) (hash : String) (isDraft : Bool) : String :=
  artifactName source hash ++ String.ofList (dotted part.extensions)
    ++ if isDraft then ".tmp" else ""

end ArtifactPart

/-- What the name of a draft has behind it. -/
def draftExtensions (isDraft : Bool) : List (List Char) := if isDraft then ["tmp".toList] else []

theorem exists_toList_artifactName (source : Path) (hash : String) :
    ∃ front, (artifactName source hash).toList
      = front ++ '_' :: (hash.toList ++ source.suffix.toList) := by
  refine ⟨replaceAll ['/'] ['_'] (replaceAll ['.', '/'] ['_'] source.parent.toString.toList)
    ++ '_' :: source.stem.toList, ?_⟩
  have hunderscore : "_".toList = ['_'] := rfl
  rw [artifactName]
  simp only [String.toList_append, String.toList_ofList, hunderscore, List.append_assoc,
    List.cons_append, List.nil_append]

/-- The digest and the extensions are read back from the name of a cached file. -/
theorem lastLabels_fileName (part : ArtifactPart) {source : Path} (hsource : source.HasOwnExtension)
    (code : List Char) (isDraft : Bool) :
    ∃ extensions : List (List Char), "tags".toList ∉ extensions
      ∧ lastLabels (part.fileName source (Engine.hashOf code) isDraft).toList
        = (Engine.hashOf code).toList
          :: (extensions ++ part.extensions ++ draftExtensions isDraft) := by
  obtain ⟨extensions, hsuffix, hlength, hdots⟩ := exists_extension source
  obtain ⟨htags, hunderscore⟩ := hsource
  refine ⟨extensions, fun hmem => htags ?_, ?_⟩
  · -- the only extension is the whole suffix
    obtain ⟨e, rfl⟩ := List.length_eq_one_iff.1
      (Nat.le_antisymm hlength (List.length_pos_of_mem hmem))
    rw [← List.mem_singleton.1 hmem] at hsuffix
    rw [← String.toList_inj, hsuffix]
    decide
  -- behind the last underscore there are the digest and the extensions
  have hdraft : (if isDraft then ".tmp" else "").toList = dotted (draftExtensions isDraft) := by
    cases isDraft <;> decide
  obtain ⟨front, hfront⟩ := exists_toList_artifactName source (Engine.hashOf code)
  have hname : (part.fileName source (Engine.hashOf code) isDraft).toList
      = front ++ '_' :: ((Engine.hashOf code).toList
          ++ dotted (extensions ++ part.extensions ++ draftExtensions isDraft)) := by
    rw [ArtifactPart.fileName, String.toList_append, String.toList_append, hfront, hdraft, hsuffix,
      String.toList_ofList, dotted_append, dotted_append]
    simp only [List.append_assoc, List.cons_append]
  have hrest : '_' ∉ (Engine.hashOf code).toList
      ++ dotted (extensions ++ part.extensions ++ draftExtensions isDraft) := by
    rw [dotted_append, dotted_append, ← hsuffix]
    simp only [List.mem_append, not_or]
    refine ⟨underscore_not_mem_hashOf code, ⟨hunderscore, ?_⟩, ?_⟩
    · cases part <;> decide
    · cases isDraft <;> decide
  rw [hname, lastLabels_append hrest, splitAtChar_dotted (dot_not_mem_hashOf code)]
  intro e he
  rw [List.mem_append, List.mem_append] at he
  obtain (he | he) | he := he
  · exact hdots e he
  · cases part <;> revert e <;> decide
  · cases isDraft <;> revert e <;> decide

/-- Files of one name belong to one digest, and both hold tag names or neither does. -/
theorem eq_of_fileName_eq {part other : ArtifactPart} {source otherSource : Path}
    (hsource : source.HasOwnExtension) (hother : otherSource.HasOwnExtension)
    {code otherCode : List Char} {isDraft : Bool}
    (h : part.fileName source (Engine.hashOf code) false
      = other.fileName otherSource (Engine.hashOf otherCode) isDraft) :
    Engine.hashOf code = Engine.hashOf otherCode ∧ (part = .tags ↔ other = .tags) := by
  obtain ⟨extensions, htags, hlabels⟩ := lastLabels_fileName part hsource code false
  obtain ⟨others, hothers, hotherLabels⟩ := lastLabels_fileName other hother otherCode isDraft
  rw [h, hotherLabels] at hlabels
  obtain ⟨hhash, hextensions⟩ := List.cons.inj hlabels
  refine ⟨String.toList_inj.1 hhash.symm, ?_⟩
  -- the extension for tag names is none of a source or a draft
  have hpart (p : ArtifactPart) : "tags".toList ∈ p.extensions ↔ p = .tags := by
    cases p <;> decide
  have hdraft (isDraft : Bool) : "tags".toList ∉ draftExtensions isDraft := by
    cases isDraft <;> decide
  have hmem := congrArg ("tags".toList ∈ ·) hextensions
  simp only [List.mem_append, htags, hothers, hpart, hdraft, false_or, or_false] at hmem
  exact iff_of_eq hmem.symm

end BlockTemplate
