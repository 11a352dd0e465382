import TreeShell.Proofs.Path.Segments

/-! # Resolved paths

`resolve` walks from the root along the segments of the working directory and of the path. Whatever it is
given, it ends at a path whose segments are proper names, and such a path it leaves alone.
-/

namespace TreeShell.Path

theorem isResolved_iff {path : String} :
    IsResolved path ↔ ∃ segs, (∀ s ∈ segs, IsProper s) ∧ path = ofSegments segs := by
  have same (s : String) : (s ≠ "" ∧ s ≠ "." ∧ s ≠ ".." ∧ '/' ∉ s.toList) ↔ IsProper s :=
    ⟨fun ⟨filled, here, up, slashFree⟩ => ⟨⟨filled, slashFree⟩, here, up⟩,
      fun ⟨⟨filled, slashFree⟩, here, up⟩ => ⟨filled, here, up, slashFree⟩⟩
  simp only [IsResolved, same]

theorem IsResolved.exists_names {path : String} (resolved : IsResolved path) :
    ∃ segs, (∀ s ∈ segs, IsName s) ∧ path = ofSegments segs := by
  obtain ⟨segs, proper, same⟩ := isResolved_iff.mp resolved
  exact ⟨segs, fun s member => (proper s member).1, same⟩

/-- One step of a walk keeps to proper names. -/
theorem visit_proper {trail : List String} {segment : String} (proper : ∀ s ∈ trail, IsProper s)
    (slashFree : '/' ∉ segment.toList) : ∀ s ∈ visit trail segment, IsProper s := by
  rw [visit]
  split
  · exact proper
  · next skipped =>
    split
    · exact fun s member => proper s (List.mem_of_mem_tail member)
    · next up =>
      rw [not_or] at skipped
      intro s member
      rcases List.mem_cons.mp member with rfl | later
      · exact ⟨⟨skipped.1, slashFree⟩, skipped.2, up⟩
      · exact proper s later

theorem foldl_visit_proper {segments : List String} (slashFree : ∀ s ∈ segments, '/' ∉ s.toList)
    {trail : List String} (proper : ∀ s ∈ trail, IsProper s) :
    ∀ s ∈ segments.foldl visit trail, IsProper s := by
  induction segments generalizing trail with
  | nil => exact proper
  | cons segment rest ih =>
    exact ih (fun s member => slashFree s (List.mem_cons_of_mem _ member))
      (visit_proper proper (slashFree segment (List.mem_cons_self ..)))

/-- Every result of `resolve` is resolved. -/
theorem isResolved_resolve (path cwd : String) : IsResolved (resolve path cwd) := by
  refine isResolved_iff.mpr ⟨_, ?_, rfl⟩
  intro s member
  refine foldl_visit_proper ?_ (List.forall_mem_nil _) s (List.mem_reverse.mp member)
  intro piece inside
  rcases List.mem_append.mp inside with h | h
  · exact Text.not_mem_of_mem_split h
  · exact Text.not_mem_of_mem_split h

/-- A walk along proper names takes each of them. -/
theorem foldl_visit_eq {segs : List String} (proper : ∀ s ∈ segs, IsProper s) (trail : List String) :
    segs.foldl visit trail = segs.reverse ++ trail := by
  induction segs generalizing trail with
  | nil => rfl
  | cons s rest ih =>
    obtain ⟨⟨filled, -⟩, here, up⟩ := proper s (List.mem_cons_self ..)
    have step : visit trail s = s :: trail := by
      rw [visit, if_neg (not_or.mpr ⟨filled, here⟩), if_neg up]
    rw [List.foldl_cons, step, ih (fun s member => proper s (List.mem_cons_of_mem _ member))]
    simp

/-- A walk along a resolved path takes each of its segments. -/
theorem foldl_visit_ofSegments {segs : List String} (proper : ∀ s ∈ segs, IsProper s) (trail : List String) :
    (Text.split '/' (ofSegments segs)).foldl visit trail = segs.reverse ++ trail := by
  have blank (trail : List String) : visit trail "" = trail := by simp [visit]
  by_cases empty : segs = []
  · have root : Text.split '/' (ofSegments segs) = ["", ""] := by
      subst empty
      decide
    rw [root, empty]
    simp [blank]
  · rw [split_ofSegments (fun s member => (proper s member).1) empty, List.foldl_cons, blank, foldl_visit_eq proper]

theorem startsWith_ofSegments (segs : List String) : Text.startsWith (ofSegments segs) "/" = true := by
  rw [Text.startsWith_iff, ofSegments, String.toList_append]
  exact List.prefix_append ..

theorem IsResolved.absolute {path : String} (resolved : IsResolved path) : Text.startsWith path "/" = true := by
  obtain ⟨segs, -, rfl⟩ := isResolved_iff.mp resolved
  exact startsWith_ofSegments segs

/-- A resolved path is left alone, whatever the working directory. -/
theorem IsResolved.resolve_eq {path : String} (resolved : IsResolved path) (cwd : String) :
    resolve path cwd = path := by
  obtain ⟨segs, proper, rfl⟩ := isResolved_iff.mp resolved
  have absolute := startsWith_ofSegments segs
  have walked : normalize (Text.split '/' "" ++ Text.split '/' (ofSegments segs)) = segs := by
    rw [normalize, List.foldl_append, foldl_visit_ofSegments proper, Text.split_empty]
    simp [visit]
  simp only [resolve, absolute, if_true, walked]

/-- A proper name leads from a resolved path to the path below it with that name. -/
theorem IsResolved.resolve_child {path name : String} (resolved : IsResolved path) (proper : IsProper name) :
    resolve name path = join path name := by
  obtain ⟨segs, properSegs, rfl⟩ := isResolved_iff.mp resolved
  have relative : Text.startsWith name "/" = false := by
    rw [← Bool.not_eq_true, Text.startsWith_iff]
    exact fun absolute => proper.1.2 (absolute.subset (List.mem_singleton_self _))
  have walked : normalize (Text.split '/' (ofSegments segs) ++ Text.split '/' name) = segs ++ [name] := by
    rw [normalize, List.foldl_append, foldl_visit_ofSegments properSegs, Text.split_eq_singleton proper.1.2,
      foldl_visit_eq fun s member => List.mem_singleton.mp member ▸ proper]
    simp
  rw [join_ofSegments fun s member => (properSegs s member).1]
  simp only [resolve, relative, Bool.false_eq_true, if_false, walked]

/-- A resolved path other than the root has a last segment. -/
theorem IsResolved.exists_concat {path : String} (resolved : IsResolved path) (notRoot : path ≠ "/") :
    ∃ front last, (∀ s ∈ front, IsProper s) ∧ IsProper last ∧ path = ofSegments (front ++ [last]) := by
  obtain ⟨segs, proper, rfl⟩ := isResolved_iff.mp resolved
  have nonempty : segs ≠ [] := by
    rintro rfl
    exact notRoot ofSegments_nil
  refine ⟨segs.dropLast, segs.getLast nonempty, ?_, proper _ (List.getLast_mem nonempty), ?_⟩
  · intro s member
    exact proper s (List.dropLast_subset _ member)
  · rw [List.dropLast_concat_getLast]

theorem IsResolved.exists_names_concat {path : String} (resolved : IsResolved path) (notRoot : path ≠ "/") :
    ∃ front last, (∀ s ∈ front, IsName s) ∧ IsName last ∧ path = ofSegments (front ++ [last]) := by
  obtain ⟨front, last, proper, lastProper, same⟩ := resolved.exists_concat notRoot
  exact ⟨front, last, fun s member => (proper s member).1, lastProper.1, same⟩

theorem IsResolved.parent {path : String} (resolved : IsResolved path) (notRoot : path ≠ "/") : IsResolved (parent path) := by
  obtain ⟨front, last, proper, lastProper, rfl⟩ := resolved.exists_concat notRoot
  rw [parent_ofSegments front lastProper.1]
  exact isResolved_iff.mpr ⟨front, proper, rfl⟩

/-- The parent of a path and its last name make up the path. -/
theorem IsResolved.join_parent_name {path : String} (resolved : IsResolved path) (notRoot : path ≠ "/") :
    Path.join (Path.parent path) (Path.name path) = path := by
  obtain ⟨front, last, frontNames, lastName, rfl⟩ := resolved.exists_names_concat notRoot
  rw [parent_ofSegments front lastName, name_ofSegments front lastName, join_ofSegments frontNames]

/-- The last name of a resolved path can be joined to another one. -/
theorem IsResolved.join_name {path other : String} (resolved : IsResolved path) (otherResolved : IsResolved other)
    (notRoot : other ≠ "/") : IsResolved (join path (name other)) ∧ join path (name other) ≠ "/" := by
  obtain ⟨segs, proper, rfl⟩ := isResolved_iff.mp resolved
  obtain ⟨front, last, -, lastProper, rfl⟩ := otherResolved.exists_concat notRoot
  have names (s : String) (member : s ∈ segs) : IsName s := (proper s member).1
  rw [name_ofSegments front lastProper.1, join_ofSegments names]
  constructor
  · refine isResolved_iff.mpr ⟨_, fun s member => ?_, rfl⟩
    rcases List.mem_append.mp member with h | h
    · exact proper s h
    · exact List.mem_singleton.mp h ▸ lastProper
  · rw [ne_eq, ofSegments_eq_root_iff (names_concat names lastProper.1)]
    simp

/-- A proper name can be joined to a resolved path. -/
theorem IsResolved.join {path name : String} (resolved : IsResolved path) (proper : IsProper name) :
    IsResolved (join path name) := by
  obtain ⟨segs, properSegs, rfl⟩ := isResolved_iff.mp resolved
  rw [join_ofSegments fun s member => (properSegs s member).1]
  refine isResolved_iff.mpr ⟨_, fun s member => ?_, rfl⟩
  rcases List.mem_append.mp member with front | last
  · exact properSegs s front
  · exact List.mem_singleton.mp last ▸ proper

theorem IsResolved.name_join {path n : String} (resolved : IsResolved path) (valid : IsName n) :
    name (Path.join path n) = n := by
  obtain ⟨segs, names, rfl⟩ := resolved.exists_names
  rw [join_ofSegments names, name_ofSegments segs valid]

/-- What a child lies within is the child itself, or its parent lies within it. -/
theorem IsResolved.isWithin_join {path other n : String} (resolved : IsResolved path) (valid : IsName n)
    (otherResolved : IsResolved other) :
    isWithin (Path.join path n) other = true ↔ other = Path.join path n ∨ isWithin path other = true := by
  obtain ⟨segs, names, rfl⟩ := resolved.exists_names
  obtain ⟨others, otherNames, rfl⟩ := otherResolved.exists_names
  rw [join_ofSegments names, isWithin_ofSegments (names_concat names valid) otherNames,
    isWithin_ofSegments names otherNames, ofSegments_inj otherNames (names_concat names valid), List.prefix_concat_iff]

theorem IsResolved.isWithin_self {path : String} (resolved : IsResolved path) : isWithin path path = true := by
  obtain ⟨segs, names, rfl⟩ := resolved.exists_names
  exact (isWithin_ofSegments names names).mpr List.prefix_rfl

theorem IsResolved.isWithin_trans {path other above : String} (resolved : IsResolved path)
    (otherResolved : IsResolved other) (aboveResolved : IsResolved above) (first : isWithin path other = true)
    (second : isWithin other above = true) : isWithin path above = true := by
  obtain ⟨segs, names, rfl⟩ := resolved.exists_names
  obtain ⟨others, otherNames, rfl⟩ := otherResolved.exists_names
  obtain ⟨tops, topNames, rfl⟩ := aboveResolved.exists_names
  rw [isWithin_ofSegments names otherNames] at first
  rw [isWithin_ofSegments otherNames topNames] at second
  exact (isWithin_ofSegments names topNames).mpr (second.trans first)

/-- The root lies within nothing but itself. -/
theorem IsResolved.eq_root {path : String} (resolved : IsResolved path) (above : isWithin "/" path = true) : path = "/" := by
  obtain ⟨segs, names, rfl⟩ := resolved.exists_names
  rw [← ofSegments_nil, isWithin_ofSegments (List.forall_mem_nil _) names, List.prefix_nil] at above
  rw [above, ofSegments_nil]

end TreeShell.Path
