import Mathlib.Data.List.Basic
import Mathlib.Data.List.TakeWhile
import TreeShell.Text.Blank

/-! # Trimming

Blanks at the ends of a text make no difference to what is left when it is trimmed, and characters at the end that begin and
end without one all stay.
-/

namespace TreeShell.Text

variable {cs rest trail : List Char}

theorem trimChars_dropWhile (cs : List Char) : trimChars (cs.dropWhile isBlank) = trimChars cs := by
  have idle : (cs.dropWhile isBlank).dropWhile isBlank = cs.dropWhile isBlank :=
    List.dropWhile_eq_self_iff.mpr fun filled => List.dropWhile_get_zero_not isBlank cs filled
  rw [trimChars, idle, trimChars]

theorem trimChars_append_blanks (cs : List Char) (blank : ∀ c ∈ trail, isBlank c = true) :
    trimChars (cs ++ trail) = trimChars cs := by
  have blank' : ∀ c ∈ trail.reverse, isBlank c = true := fun c member => blank c (List.mem_reverse.mp member)
  have all : trail.dropWhile isBlank = [] := List.dropWhile_eq_nil_iff.mpr blank
  rw [trimChars, trimChars, List.dropWhile_append]
  split
  · next nothing => rw [all, List.isEmpty_iff.mp nothing]
  · rw [List.reverse_append, List.dropWhile_append_of_pos blank']

/-- What is behind some characters stays if it begins and ends without a blank. -/
theorem trimChars_append (cs : List Char) (filled : rest ≠ []) (first : isBlank (rest.head filled) = false)
    (last : isBlank (rest.getLast filled) = false) : trimChars (cs ++ rest) = cs.dropWhile isBlank ++ rest := by
  have kept : rest.dropWhile isBlank = rest := by
    cases rest with
    | nil => exact absurd rfl filled
    | cons c later => exact List.dropWhile_cons_of_neg (Bool.eq_false_iff.mp first)
  have dropped : (cs ++ rest).dropWhile isBlank = cs.dropWhile isBlank ++ rest := by
    rw [List.dropWhile_append, kept]
    split
    · next nothing => rw [List.isEmpty_iff.mp nothing, List.nil_append]
    · rfl
  have reversed : rest.reverse = rest.getLast filled :: rest.dropLast.reverse := by
    rw [← List.reverse_concat, List.dropLast_append_getLast filled]
  rw [trimChars, dropped, List.reverse_append, reversed, List.cons_append,
    List.dropWhile_cons_of_neg (Bool.eq_false_iff.mp last), ← List.cons_append, ← reversed, ← List.reverse_append,
    List.reverse_reverse]

end TreeShell.Text
