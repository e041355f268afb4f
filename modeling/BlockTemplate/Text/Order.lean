/-!
# Order of texts

Texts are ordered by code points. Sorting keeps the order of items whose texts are equal.
-/

namespace BlockTemplate

/-- The order of texts by code points. -/
def compareChars : List Char → List Char → Ordering
  | [], [] => .eq
  | [], _ :: _ => .lt
  | _ :: _, [] => .gt
  | a :: as, b :: bs => (compare a.toNat b.toNat).then (compareChars as bs)

def compareText (a b : String) : Ordering := compareChars a.toList b.toList

/-- The items in the order of their texts. -/
def sortedBy {α : Type} (text : α → String) (items : List α) : List α :=
  items.mergeSort fun a b => compareText (text a) (text b) != .gt

/-- The texts in order, each of them once. -/
def sortedUnique (texts : List String) : List String :=
  sortedBy id texts.eraseDups

theorem nodup_eraseDups (texts : List String) : texts.eraseDups.Nodup := by
  match texts with
  | [] => exact List.nodup_nil
  | first :: rest =>
    rw [List.eraseDups_cons]
    refine List.nodup_cons.2 ⟨?_, nodup_eraseDups _⟩
    simp
termination_by texts.length
decreasing_by
  have hle := List.length_filter_le (fun text => !text == first) rest
  simp
  omega

theorem nodup_sortedUnique (texts : List String) : (sortedUnique texts).Nodup :=
  (List.mergeSort_perm _ _).nodup_iff.2 (nodup_eraseDups texts)

end BlockTemplate
