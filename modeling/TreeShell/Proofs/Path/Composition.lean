import TreeShell.Proofs.Path.Resolved

/-! # Resolving in several steps

A walk stops at the root when it is told to go further up, so what it comes to is not settled by its last segments alone. But
it goes on from the path that it has come to as from the walk itself (`trail_ofSegments`). So a working directory may
be resolved first, and what one text and then another lead to is what both lead to with a slash between them.
-/

namespace TreeShell.Path

variable {path other : String}

/-- The segments that a walk from the root along a text has collected, last first. -/
def trail (path : String) : List String :=
  (Text.split '/' path).foldl visit []

@[simp] theorem trail_empty : trail "" = [] := by
  rw [trail, Text.split_empty]
  rfl

theorem trail_proper (path : String) : ∀ s ∈ trail path, IsProper s :=
  foldl_visit_proper (fun _ piece => Text.not_mem_of_mem_split piece) (List.forall_mem_nil _)

/-- A walk to the path that another walk has come to has collected the same. -/
theorem trail_ofSegments {segs : List String} (proper : ∀ s ∈ segs, IsProper s) :
    trail (ofSegments segs.reverse) = segs := by
  rw [trail, foldl_visit_ofSegments fun s member => proper s (List.mem_reverse.mp member), List.reverse_reverse,
    List.append_nil]

/-- A walk along a slash between two texts takes the one and then the other. -/
theorem foldl_visit_slash (path other : String) (start : List String) :
    (Text.split '/' (path ++ "/" ++ other)).foldl visit start =
      (Text.split '/' other).foldl visit ((Text.split '/' path).foldl visit start) := by
  rw [slash_eq, Text.split_append, List.foldl_append]

theorem resolve_of_absolute (absolute : Text.startsWith path "/" = true) (cwd : String) :
    resolve path cwd = ofSegments (trail path).reverse := by
  simp only [resolve, absolute, if_true, normalize, List.foldl_append]
  rw [← trail, trail_empty, ← trail]

theorem resolve_of_relative (relative : Text.startsWith path "/" = false) (cwd : String) :
    resolve path cwd = ofSegments ((Text.split '/' path).foldl visit (trail cwd)).reverse := by
  simp only [resolve, relative, Bool.false_eq_true, if_false, normalize, List.foldl_append]
  rw [← trail]

/-- From the root a text leads where it does from its own beginning. -/
theorem trail_resolve_root (dir : String) : trail (resolve dir "/") = trail dir := by
  have root : trail "/" = [] := by simpa using trail_ofSegments (List.forall_mem_nil IsProper)
  have resolved : resolve dir "/" = ofSegments (trail dir).reverse := by
    cases leads : Text.startsWith dir "/" with
    | true => exact resolve_of_absolute leads "/"
    | false => rw [resolve_of_relative leads, root, trail]
  rw [resolved, trail_ofSegments (trail_proper dir)]

/-- It makes no difference whether the working directory was resolved before. -/
theorem resolve_resolve_cwd (path dir : String) : resolve path (resolve dir "/") = resolve path dir := by
  cases leads : Text.startsWith path "/" with
  | true => rw [resolve_of_absolute leads, resolve_of_absolute leads]
  | false => rw [resolve_of_relative leads, resolve_of_relative leads, trail_resolve_root]

/-- A slash at the front of a text stays there when something is added at the end. -/
theorem startsWith_append_of_ne_empty (filled : path ≠ "") (other : String) :
    Text.startsWith (path ++ other) "/" = Text.startsWith path "/" := by
  obtain ⟨c, rest, chars⟩ := List.exists_cons_of_ne_nil (mt String.toList_eq_nil_iff.mp filled)
  rw [Text.startsWith, Text.startsWith, String.toList_append, chars]
  rfl

/-- What a text leads to from where another one leads is what both lead to with a slash between them. -/
theorem resolve_resolve_slash (filled : path ≠ "") (relative : Text.startsWith other "/" = false) (cwd : String) :
    resolve other (resolve path cwd) = resolve (path ++ "/" ++ other) cwd := by
  have front : Text.startsWith (path ++ "/" ++ other) "/" = Text.startsWith path "/" := by
    rw [String.append_assoc, startsWith_append_of_ne_empty filled]
  rw [resolve_of_relative relative]
  cases leads : Text.startsWith path "/" with
  | true =>
    rw [resolve_of_absolute leads, resolve_of_absolute (front.trans leads), trail_ofSegments (trail_proper path), trail,
      trail, foldl_visit_slash]
  | false =>
    have walked : ∀ s ∈ (Text.split '/' path).foldl visit (trail cwd), IsProper s :=
      foldl_visit_proper (fun _ piece => Text.not_mem_of_mem_split piece) (trail_proper cwd)
    rw [resolve_of_relative leads, resolve_of_relative (front.trans leads), trail_ofSegments walked, foldl_visit_slash]

end TreeShell.Path
