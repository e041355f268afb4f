import BlockTemplate.Text.Utf8

/-!
# Text files are read back

The bytes that encode a text are decoded to the text, and a text without carriage returns keeps its
line breaks.

## Key results

- `decodeUtf8_encodeUtf8`: decoding undoes encoding
- `decodeTextFile_encodeUtf8`: a text without carriage returns is read as it was written
-/

namespace BlockTemplate

/-! ## First bytes -/

theorem utf8Lead?_one : ∀ v < 0x80, utf8Lead? (UInt8.ofNat v) = some (v, []) := by
  decide

theorem utf8Lead?_two : ∀ v < 0x1E,
    utf8Lead? (UInt8.ofNat (v + 0xC2)) = some (v + 2, [(0x80, 0xBF)]) := by
  decide

/-- The ranges of the bytes behind the first one of three. -/
def rangesOfThree (v : Nat) : List (UInt8 × UInt8) :=
  if v = 0 then [(0xA0, 0xBF), (0x80, 0xBF)]
  else if v = 0xD then [(0x80, 0x9F), (0x80, 0xBF)]
  else [(0x80, 0xBF), (0x80, 0xBF)]

theorem utf8Lead?_three : ∀ v < 0x10,
    utf8Lead? (UInt8.ofNat (v + 0xE0)) = some (v, rangesOfThree v) := by
  decide

/-- The ranges of the bytes behind the first one of four. -/
def rangesOfFour (v : Nat) : List (UInt8 × UInt8) :=
  if v = 0 then [(0x90, 0xBF), (0x80, 0xBF), (0x80, 0xBF)]
  else if v = 4 then [(0x80, 0x8F), (0x80, 0xBF), (0x80, 0xBF)]
  else [(0x80, 0xBF), (0x80, 0xBF), (0x80, 0xBF)]

theorem utf8Lead?_four : ∀ v < 5,
    utf8Lead? (UInt8.ofNat (v + 0xF0)) = some (v, rangesOfFour v) := by
  decide

/-! ## Characters -/

theorem toNat_ofNat_of_le {v : Nat} {high : UInt8} (h : v ≤ high.toNat) :
    (UInt8.ofNat v).toNat = v := by
  have hhigh := high.toNat_lt
  rw [UInt8.toNat_ofNat']
  omega

/-- Whether a byte can follow where one of a range is wanted. -/
theorem inRange_ofNat {low high : UInt8} {v : Nat} (hlow : low.toNat ≤ v) (hhigh : v ≤ high.toNat) :
    (low ≤ UInt8.ofNat v && UInt8.ofNat v ≤ high) = true := by
  rw [Bool.and_eq_true, decide_eq_true_iff, decide_eq_true_iff, UInt8.le_iff_toNat_le,
    UInt8.le_iff_toNat_le, toNat_ofNat_of_le hhigh]
  exact ⟨hlow, hhigh⟩

variable {position code v : Nat} {read rest : List UInt8} {low high : UInt8}
  {more : List (UInt8 × UInt8)}

/-- A byte that follows adds six bits to the code point. -/
theorem decodeUtf8From_continue (hlow : low.toNat ≤ v + 0x80) (hhigh : v + 0x80 ≤ high.toNat)
    (hmore : more.isEmpty = false) :
    decodeUtf8From position code read ((low, high) :: more) (UInt8.ofNat (v + 0x80) :: rest)
      = decodeUtf8From (position + 1) (code * 64 + v) (UInt8.ofNat (v + 0x80) :: read) more
          rest := by
  rw [decodeUtf8From, if_pos (inRange_ofNat hlow hhigh)]
  simp only [hmore, Bool.false_eq_true, if_false, toNat_ofNat_of_le hhigh, Nat.add_sub_cancel]

/-- The last byte that follows completes the character. -/
theorem decodeUtf8From_complete (hlow : low.toNat ≤ v + 0x80) (hhigh : v + 0x80 ≤ high.toNat) :
    decodeUtf8From position code read [(low, high)] (UInt8.ofNat (v + 0x80) :: rest)
      = (decodeUtf8From (position + 1) 0 [] [] rest).map (Char.ofNat (code * 64 + v) :: ·) := by
  rw [decodeUtf8From, if_pos (inRange_ofNat hlow hhigh)]
  simp only [List.isEmpty_nil, if_true, toNat_ofNat_of_le hhigh, Nat.add_sub_cancel]
  cases decodeUtf8From (position + 1) 0 [] [] rest <;> rfl

/-- The second byte of three lies in the range its first byte leaves for it. -/
theorem exists_rangesOfThree (hvalid : v < 0xD800 ∨ 0xDFFF < v) (hlow : 0x7FF < v)
    (hhigh : v ≤ 0xFFFF) :
    ∃ low high : UInt8, rangesOfThree (v / 4096) = [(low, high), (0x80, 0xBF)]
      ∧ low.toNat ≤ v / 64 % 0x40 + 0x80 ∧ v / 64 % 0x40 + 0x80 ≤ high.toNat := by
  rw [rangesOfThree]
  split
  -- behind a first byte of zero, less would fit into two bytes
  · refine ⟨0xA0, 0xBF, rfl, ?_, ?_⟩
    · show 0xA0 ≤ _
      omega
    · show _ ≤ 0xBF
      omega
  split
  -- more would be a surrogate
  · refine ⟨0x80, 0x9F, rfl, ?_, ?_⟩
    · show 0x80 ≤ _
      omega
    · show _ ≤ 0x9F
      omega
  refine ⟨0x80, 0xBF, rfl, ?_, ?_⟩
  · show 0x80 ≤ _
    omega
  · show _ ≤ 0xBF
    omega

/-- The second byte of four lies in the range its first byte leaves for it. -/
theorem exists_rangesOfFour (hlow : 0xFFFF < v) (hhigh : v < 0x110000) :
    ∃ low high : UInt8,
      rangesOfFour (v / 262144) = [(low, high), (0x80, 0xBF), (0x80, 0xBF)]
      ∧ low.toNat ≤ v / 4096 % 0x40 + 0x80 ∧ v / 4096 % 0x40 + 0x80 ≤ high.toNat := by
  rw [rangesOfFour]
  split
  -- behind a first byte of zero, less would fit into three bytes
  · refine ⟨0x90, 0xBF, rfl, ?_, ?_⟩
    · show 0x90 ≤ _
      omega
    · show _ ≤ 0xBF
      omega
  split
  -- more would be beyond the last code point
  · refine ⟨0x80, 0x8F, rfl, ?_, ?_⟩
    · show 0x80 ≤ _
      omega
    · show _ ≤ 0x8F
      omega
  refine ⟨0x80, 0xBF, rfl, ?_, ?_⟩
  · show 0x80 ≤ _
    omega
  · show _ ≤ 0xBF
    omega

theorem eighty_le_sixBits (v : Nat) : (0x80 : UInt8).toNat ≤ v % 0x40 + 0x80 := by
  show 0x80 ≤ _
  omega

theorem sixBits_le_BF (v : Nat) : v % 0x40 + 0x80 ≤ (0xBF : UInt8).toNat := by
  show _ ≤ 0xBF
  omega

/-! ## Code points -/

theorem decodeUtf8From_one (hhigh : v ≤ 0x7F) :
    decodeUtf8From position 0 [] [] (UInt8.ofNat v :: rest)
      = (decodeUtf8From (position + 1) 0 [] [] rest).map (Char.ofNat v :: ·) := by
  rw [decodeUtf8From, utf8Lead?_one v (by omega)]
  cases decodeUtf8From (position + 1) 0 [] [] rest <;> rfl

theorem decodeUtf8From_two (hlow : 0x7F < v) (hhigh : v ≤ 0x7FF) :
    decodeUtf8From position 0 [] []
        (UInt8.ofNat (v / 64 % 0x20 + 0xC0) :: UInt8.ofNat (v % 0x40 + 0x80) :: rest)
      = (decodeUtf8From (position + 1 + 1) 0 [] [] rest).map (Char.ofNat v :: ·) := by
  -- the first two of the first bytes would write less than two bytes need
  have hlead : v / 64 % 0x20 + 0xC0 = v / 64 - 2 + 0xC2 := by omega
  have hcode : (v / 64 - 2 + 2) * 64 + v % 0x40 = v := by omega
  rw [hlead, decodeUtf8From, utf8Lead?_two _ (by omega)]
  dsimp only
  rw [decodeUtf8From_complete (eighty_le_sixBits v) (sixBits_le_BF v), hcode]

theorem decodeUtf8From_three (hvalid : v < 0xD800 ∨ 0xDFFF < v) (hlow : 0x7FF < v)
    (hhigh : v ≤ 0xFFFF) :
    decodeUtf8From position 0 [] [] (UInt8.ofNat (v / 4096 % 0x10 + 0xE0)
        :: UInt8.ofNat (v / 64 % 0x40 + 0x80) :: UInt8.ofNat (v % 0x40 + 0x80) :: rest)
      = (decodeUtf8From (position + 1 + 1 + 1) 0 [] [] rest).map (Char.ofNat v :: ·) := by
  have hlead : v / 4096 % 0x10 = v / 4096 := by omega
  have hcode : (v / 4096 * 64 + v / 64 % 0x40) * 64 + v % 0x40 = v := by omega
  obtain ⟨low, high, hranges, hsecond, hsecond'⟩ := exists_rangesOfThree hvalid hlow hhigh
  rw [hlead, decodeUtf8From, utf8Lead?_three _ (by omega), hranges]
  dsimp only
  rw [decodeUtf8From_continue hsecond hsecond' rfl,
    decodeUtf8From_complete (eighty_le_sixBits v) (sixBits_le_BF v), hcode]

theorem decodeUtf8From_four (hlow : 0xFFFF < v) (hhigh : v < 0x110000) :
    decodeUtf8From position 0 [] [] (UInt8.ofNat (v / 262144 % 0x08 + 0xF0)
        :: UInt8.ofNat (v / 4096 % 0x40 + 0x80) :: UInt8.ofNat (v / 64 % 0x40 + 0x80)
        :: UInt8.ofNat (v % 0x40 + 0x80) :: rest)
      = (decodeUtf8From (position + 1 + 1 + 1 + 1) 0 [] [] rest).map (Char.ofNat v :: ·) := by
  have hlead : v / 262144 % 0x08 = v / 262144 := by omega
  have hcode : ((v / 262144 * 64 + v / 4096 % 0x40) * 64 + v / 64 % 0x40) * 64 + v % 0x40
      = v := by omega
  obtain ⟨low, high, hranges, hsecond, hsecond'⟩ := exists_rangesOfFour hlow hhigh
  rw [hlead, decodeUtf8From, utf8Lead?_four _ (by omega), hranges]
  dsimp only
  rw [decodeUtf8From_continue hsecond hsecond' rfl,
    decodeUtf8From_continue (eighty_le_sixBits (v / 64)) (sixBits_le_BF (v / 64)) rfl,
    decodeUtf8From_complete (eighty_le_sixBits v) (sixBits_le_BF v), hcode]

/-- The code point of a character decides on the number of its bytes. -/
theorem utf8EncodeChar_eq (c : Char) :
    String.utf8EncodeChar c
      = if c.toNat ≤ 0x7F then [UInt8.ofNat c.toNat]
        else if c.toNat ≤ 0x7FF then
          [UInt8.ofNat (c.toNat / 64 % 0x20 + 0xC0), UInt8.ofNat (c.toNat % 0x40 + 0x80)]
        else if c.toNat ≤ 0xFFFF then
          [UInt8.ofNat (c.toNat / 4096 % 0x10 + 0xE0),
            UInt8.ofNat (c.toNat / 64 % 0x40 + 0x80), UInt8.ofNat (c.toNat % 0x40 + 0x80)]
        else
          [UInt8.ofNat (c.toNat / 262144 % 0x08 + 0xF0),
            UInt8.ofNat (c.toNat / 4096 % 0x40 + 0x80),
            UInt8.ofNat (c.toNat / 64 % 0x40 + 0x80), UInt8.ofNat (c.toNat % 0x40 + 0x80)] :=
  rfl

/-- The bytes of a character are decoded to it. -/
theorem decodeUtf8From_utf8EncodeChar (position : Nat) (c : Char) (rest : List UInt8) :
    ∃ next, decodeUtf8From position 0 [] [] (String.utf8EncodeChar c ++ rest)
      = (decodeUtf8From next 0 [] [] rest).map (c :: ·) := by
  have hvalid : c.toNat < 0xD800 ∨ 0xDFFF < c.toNat ∧ c.toNat < 0x110000 := c.valid
  have hback : Char.ofNat c.toNat = c := Char.ofNat_toNat c
  rw [utf8EncodeChar_eq]
  -- from here on the character counts as its code point
  generalize c.toNat = v at hvalid hback
  subst hback
  split
  · exact ⟨_, decodeUtf8From_one (by omega)⟩
  split
  · exact ⟨_, decodeUtf8From_two (by omega) (by omega)⟩
  split
  · exact ⟨_, decodeUtf8From_three (by omega) (by omega) (by omega)⟩
  · exact ⟨_, decodeUtf8From_four (by omega) (by omega)⟩

/-! ## Texts -/

theorem decodeUtf8From_flatMap (cs : List Char) (position : Nat) :
    decodeUtf8From position 0 [] [] (cs.flatMap String.utf8EncodeChar) = .ok cs := by
  induction cs generalizing position with
  | nil => rfl
  | cons c cs ih =>
    obtain ⟨next, h⟩ :=
      decodeUtf8From_utf8EncodeChar position c (cs.flatMap String.utf8EncodeChar)
    rw [List.flatMap_cons, h, ih next]
    rfl

/-- The bytes of a text, character by character. -/
theorem encodeUtf8_eq_flatMap (s : String) :
    encodeUtf8 s = s.toList.flatMap String.utf8EncodeChar := by
  have h : s.toUTF8 = s.toList.utf8Encode := String.utf8Encode_toList.symm
  rw [encodeUtf8, h, List.utf8Encode]
  exact List.toList_data_toByteArray

/-- Decoding undoes encoding. -/
theorem decodeUtf8_encodeUtf8 (s : String) : decodeUtf8 (encodeUtf8 s) = .ok s.toList := by
  rw [decodeUtf8, encodeUtf8_eq_flatMap, decodeUtf8From_flatMap]

/-- Without carriage returns the line breaks stay as they are. -/
theorem unifyLineBreaks_eq_self {cs : List Char} (h : '\r' ∉ cs) : unifyLineBreaks cs = cs := by
  induction cs with
  | nil => rfl
  | cons c cs ih =>
    have hc : c ≠ '\r' := fun hc => h (hc ▸ List.mem_cons_self)
    have hcs : '\r' ∉ cs := fun hmem => h (List.mem_cons_of_mem _ hmem)
    rw [unifyLineBreaks, ih hcs]
    · intro rest hr
      exact absurd hr hc
    · exact hc

/-- A text without carriage returns is read as it was written. -/
theorem decodeTextFile_encodeUtf8 {s : String} (h : '\r' ∉ s.toList) :
    decodeTextFile (encodeUtf8 s) = .ok s.toList := by
  rw [decodeTextFile, decodeUtf8_encodeUtf8]
  show Except.ok (unifyLineBreaks s.toList) = _
  rw [unifyLineBreaks_eq_self h]

end BlockTemplate
