import Mathlib.Data.List.TakeWhile
import TreeShell.Text.Blank

/-! # Cutting a text at a separator

The pieces of two texts with a separator between them are the pieces of the one and then of the other,
and pieces that are free of the separator come back from the text that joins them.
-/

namespace TreeShell.Text

@[simp] theorem split_empty (sep : Char) : split sep "" = [""] := by
  simp [split]

theorem split_append (sep : Char) (s t : String) :
    split sep (s ++ String.singleton sep ++ t) = split sep s ++ split sep t := by
  simp only [split, String.toList_append, String.toList_singleton, List.append_assoc, List.singleton_append,
    List.splitOn_append_cons_self, List.map_append]

/-- There is one piece more than there are separators. -/
theorem length_split (sep : Char) (s : String) : (split sep s).length = s.toList.count sep + 1 := by
  rw [split, List.length_map]
  induction s.toList with
  | nil => simp
  | cons c rest ih =>
    rw [List.splitOn_cons_eq_if_modifyHead]
    split
    · next same => rw [List.length_cons, ih, beq_iff_eq.mp same, List.count_cons_self]
    · next differs => rw [List.length_modifyHead, ih, List.count_cons_of_ne (by simpa using differs)]

/-- A text without the separator is a single piece. -/
theorem split_eq_singleton {sep : Char} {s : String} (free : sep ∉ s.toList) : split sep s = [s] := by
  simp [split, List.splitOn_eq_singleton free]

/-- The text after the last separator; the whole text if there is none. -/
def afterLast (sep : Char) (s : String) : String :=
  String.ofList (s.toList.reverse.takeWhile (· ≠ sep)).reverse

/-- It is the last of the pieces, and a text behind it that is free of the separator joins it. -/
theorem exists_split_append (sep : Char) (s : String) :
    ∃ front, ∀ t, sep ∉ t.toList → split sep (s ++ t) = front ++ [afterLast sep s ++ t] := by
  by_cases member : sep ∈ s.toList.reverse
  · obtain ⟨after, before, reversed, free⟩ := List.eq_append_cons_of_mem member
    have whole : s.toList = before.reverse ++ sep :: after.reverse := by
      rw [← List.reverse_reverse s.toList, reversed, List.reverse_append, List.reverse_cons, List.append_assoc]
      rfl
    have last : s.toList.reverse.takeWhile (· ≠ sep) = after := by
      rw [reversed, List.takeWhile_append_of_pos fun c inside => decide_eq_true (ne_of_mem_of_not_mem inside free),
        List.takeWhile_cons_of_neg (by simp), List.append_nil]
    refine ⟨(before.reverse.splitOn sep).map String.ofList, fun t none => ?_⟩
    have both : sep ∉ after.reverse ++ t.toList := by simp [free, none]
    rw [split, afterLast, last, String.toList_append, whole, List.append_assoc, List.cons_append,
      List.splitOn_append_cons_self, List.map_append, List.splitOn_eq_singleton both, List.map_singleton,
      String.ofList_append, String.ofList_toList]
  · have all : s.toList.reverse.takeWhile (· ≠ sep) = s.toList.reverse :=
      List.takeWhile_eq_self_iff.mpr fun c inside => decide_eq_true (ne_of_mem_of_not_mem inside member)
    refine ⟨[], fun t none => ?_⟩
    have both : sep ∉ (s ++ t).toList := by
      rw [String.toList_append]
      simpa [none] using member
    rw [split_eq_singleton both, afterLast, all, List.reverse_reverse, String.ofList_toList]
    rfl

theorem exists_split (sep : Char) (s : String) : ∃ front, split sep s = front ++ [afterLast sep s] := by
  obtain ⟨front, pieces⟩ := exists_split_append sep s
  have alone := pieces "" (by simp)
  rw [String.append_empty, String.append_empty] at alone
  exact ⟨front, alone⟩

/-- Joined pieces are cut where they were joined. -/
theorem split_intercalate {sep : Char} {pieces : List String} (free : ∀ p ∈ pieces, sep ∉ p.toList)
    (nonempty : pieces ≠ []) : split sep ((String.singleton sep).intercalate pieces) = pieces := by
  have cut : ([sep].intercalate (pieces.map String.toList)).splitOn sep = pieces.map String.toList :=
    List.splitOn_intercalate sep (by simpa using free) (by simpa using nonempty)
  rw [split, String.toList_intercalate, String.toList_singleton, cut, List.map_map]
  simp [Function.comp_def]

/-- No piece holds the separator. -/
theorem not_mem_of_mem_split {sep : Char} {s p : String} (member : p ∈ split sep s) : sep ∉ p.toList := by
  obtain ⟨cs, piece, rfl⟩ := List.mem_map.mp member
  rw [String.toList_ofList]
  clear member
  generalize s.toList = chars at piece
  induction chars generalizing cs with
  | nil => simp_all
  | cons c rest ih =>
    rw [List.splitOn_cons_eq_if_modifyHead] at piece
    split at piece
    · rcases List.mem_cons.mp piece with rfl | later
      · simp
      · exact ih cs later
    · next differs =>
      cases pieces : rest.splitOn sep with
      | nil => exact absurd pieces (List.splitOn_ne_nil sep rest)
      | cons head tail =>
        rw [pieces] at ih piece
        rcases List.mem_cons.mp piece with rfl | later
        · have headFree := ih head (List.mem_cons_self ..)
          simp only [beq_iff_eq] at differs
          simp [headFree, Ne.symm differs]
        · exact ih cs (List.mem_cons_of_mem _ later)

end TreeShell.Text
