import TreeShell.Key
import TreeShell.Proofs.Path.Segments

/-! # The components of a key

A key is read as the list of its non-empty pieces between slashes, so gluing keys with a slash appends
their components, and a key that is joined from slash-free components has just these.
-/

namespace TreeShell.Key

open Path (IsName)

@[simp] theorem components_empty : components "" = [] := by
  simp [components]

/-- Gluing two keys appends their components, whatever slashes stand at their ends. -/
theorem components_append (key child : String) :
    components (key ++ "/" ++ child) = components key ++ components child := by
  rw [components, Path.slash_eq, Text.split_append, List.filter_append]
  rfl

theorem components_eq_singleton {s : String} (valid : IsName s) : components s = [s] := by
  simp [components, Text.split_eq_singleton valid.2, valid.1]

theorem components_intercalate {parts : List String} (valid : ∀ p ∈ parts, IsName p) :
    components ("/".intercalate parts) = parts := by
  cases parts with
  | nil => simp
  | cons first rest =>
    rw [components, Path.slash_eq, Text.split_intercalate (fun p member => (valid p member).2) (by simp)]
    exact List.filter_eq_self.mpr fun p member => by simpa using (valid p member).1

/-- The place of the mapping of all passwords. -/
def passwordPlace : List String :=
  [treeRoot, passwordDirectory]

theorem components_passwords : components passwords = passwordPlace := by
  decide

end TreeShell.Key
