import TreeShell.Text.Order

/-! # Sorted texts

Sorting keeps the texts and brings them into ascending order; without a repetition among them it is strictly ascending.
-/

namespace TreeShell.Text

variable {texts : List String} {a b : String}

theorem notAfter_iff : notAfter a b = true ↔ a ≤ b := by
  rw [notAfter, Bool.not_eq_true', decide_eq_false_iff_not, String.not_lt]

theorem perm_sort (texts : List String) : (sort texts).Perm texts :=
  List.mergeSort_perm texts notAfter

theorem mem_sort : a ∈ sort texts ↔ a ∈ texts :=
  (perm_sort texts).mem_iff

theorem pairwise_sort (texts : List String) : (sort texts).Pairwise (· ≤ ·) := by
  have trans (a b c : String) (first : notAfter a b = true) (second : notAfter b c = true) : notAfter a c = true := by
    rw [notAfter_iff] at *
    exact String.le_trans first second
  have total (a b : String) : (notAfter a b || notAfter b a) = true := by
    rw [Bool.or_eq_true, notAfter_iff, notAfter_iff]
    exact String.le_total a b
  exact (List.pairwise_mergeSort trans total texts).imp notAfter_iff.mp

theorem pairwise_lt_sort (distinct : texts.Nodup) : (sort texts).Pairwise (· < ·) := by
  have different : (sort texts).Pairwise (· ≠ ·) := (perm_sort texts).nodup_iff.mpr distinct
  apply (pairwise_sort texts).imp₂ _ different
  intro a b below differ
  exact Std.lt_of_le_of_ne below differ

end TreeShell.Text
