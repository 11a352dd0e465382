import TreeShell.Path
import TreeShell.Proofs.Text.Split

/-! # Paths as lists of segments

A path that is slash-led and whose segments are names stands for the list of its segments: cutting it,
its parent, its last name, joining and the order of paths are then the operations on lists
(`segments_ofSegments`, `parent_ofSegments`, `name_ofSegments`, `join_ofSegments`,
`isWithin_ofSegments`). Every result of `resolve` is such a path, and resolving it again changes nothing.
-/

namespace TreeShell.Path

/-- Whether a text can be a segment of a path. -/
def IsName (s : String) : Prop :=
  s ≠ "" ∧ '/' ∉ s.toList

instance (s : String) : Decidable (IsName s) :=
  inferInstanceAs (Decidable (_ ∧ _))

/-- Whether a name is left alone by `resolve`. -/
def IsProper (s : String) : Prop :=
  IsName s ∧ s ≠ "." ∧ s ≠ ".."

instance (s : String) : Decidable (IsProper s) :=
  inferInstanceAs (Decidable (_ ∧ _))

theorem names_append {segs rest : List String} (names : ∀ s ∈ segs, IsName s) (valids : ∀ s ∈ rest, IsName s) :
    ∀ s ∈ segs ++ rest, IsName s :=
  fun s member => (List.mem_append.mp member).elim (names s) (valids s)

theorem names_concat {segs : List String} {n : String} (names : ∀ s ∈ segs, IsName s) (valid : IsName n) :
    ∀ s ∈ segs ++ [n], IsName s :=
  names_append names fun _ member => List.mem_singleton.mp member ▸ valid

theorem slash_eq : "/" = String.singleton '/' := rfl

variable {segs : List String} {n : String}

@[simp] theorem ofSegments_nil : ofSegments [] = "/" := by
  simp [ofSegments]

theorem toList_ofSegments (nonempty : segs ≠ []) :
    (ofSegments segs).toList = segs.flatMap fun s => '/' :: s.toList := by
  obtain ⟨first, rest, rfl⟩ := List.exists_cons_of_ne_nil nonempty
  rw [ofSegments, String.toList_append, String.toList_intercalate]
  induction rest generalizing first with
  | nil => simp
  | cons second rest ih =>
    have tail := ih second (by simp)
    simp only [List.map_cons, List.intercalate_cons_cons, List.flatMap_cons] at tail ⊢
    rw [← tail]
    simp

theorem ofSegments_eq_root_iff (names : ∀ s ∈ segs, IsName s) : ofSegments segs = "/" ↔ segs = [] := by
  refine ⟨fun root => ?_, fun empty => empty ▸ ofSegments_nil⟩
  cases segs with
  | nil => rfl
  | cons first rest =>
    have chars := congrArg String.toList root
    rw [toList_ofSegments (by simp), List.flatMap_cons, List.cons_append] at chars
    have empty : first.toList = [] := (List.append_eq_nil_iff.mp (List.cons.inj chars).2).1
    exact absurd (String.toList_eq_nil_iff.mp empty) (names first (List.mem_cons_self ..)).1

/-- A path cut at its slashes: nothing before the first, then the segments. -/
theorem split_ofSegments (names : ∀ s ∈ segs, IsName s) (nonempty : segs ≠ []) :
    Text.split '/' (ofSegments segs) = "" :: segs := by
  have glued : ofSegments segs = "" ++ String.singleton '/' ++ "/".intercalate segs := by
    simp [ofSegments, slash_eq]
  rw [glued, Text.split_append, Text.split_empty, slash_eq,
    Text.split_intercalate (fun s member => (names s member).2) nonempty]
  rfl

theorem segments_ofSegments (names : ∀ s ∈ segs, IsName s) : segments (ofSegments segs) = segs := by
  by_cases empty : segs = []
  · subst empty
    simp [segments]
  · have notRoot := mt (ofSegments_eq_root_iff names).mp empty
    have rest : String.ofList ((ofSegments segs).toList.drop 1) = "/".intercalate segs := by
      apply String.toList_injective
      simp [ofSegments, String.toList_intercalate]
    rw [segments, if_neg notRoot, rest, slash_eq,
      Text.split_intercalate (fun s member => (names s member).2) empty]

theorem ofSegments_inj {others : List String} (names : ∀ s ∈ segs, IsName s)
    (otherNames : ∀ s ∈ others, IsName s) : ofSegments segs = ofSegments others ↔ segs = others := by
  refine ⟨fun same => ?_, congrArg ofSegments⟩
  rw [← segments_ofSegments names, same, segments_ofSegments otherNames]

theorem takeWhile_name {before : List Char} (valid : IsName n) :
    (before ++ '/' :: n.toList).reverse.takeWhile (· ≠ '/') = n.toList.reverse := by
  have free : ∀ c ∈ n.toList.reverse, (decide (c ≠ '/')) = true := by
    intro c member
    simp only [ne_eq, decide_eq_true_eq]
    rintro rfl
    exact valid.2 (List.mem_reverse.mp member)
  rw [List.reverse_append, List.reverse_cons, List.append_assoc, List.takeWhile_append_of_pos free]
  simp

theorem dropWhile_name {before : List Char} (valid : IsName n) :
    (before ++ '/' :: n.toList).reverse.dropWhile (· ≠ '/') = '/' :: before.reverse := by
  have free : ∀ c ∈ n.toList.reverse, (decide (c ≠ '/')) = true := by
    intro c member
    simp only [ne_eq, decide_eq_true_eq]
    rintro rfl
    exact valid.2 (List.mem_reverse.mp member)
  rw [List.reverse_append, List.reverse_cons, List.append_assoc, List.dropWhile_append_of_pos free]
  simp

theorem toList_ofSegments_concat (segs : List String) (n : String) :
    (ofSegments (segs ++ [n])).toList = (segs.flatMap fun s => '/' :: s.toList) ++ '/' :: n.toList := by
  rw [toList_ofSegments (by simp), List.flatMap_append]
  simp

/-- The parent of a path drops its last segment. -/
theorem parent_ofSegments (segs : List String) (valid : IsName n) :
    parent (ofSegments (segs ++ [n])) = ofSegments segs := by
  rw [parent, toList_ofSegments_concat]
  simp only [List.mem_append, List.mem_cons, true_or, or_true, if_true, dropWhile_name valid,
    List.drop_succ_cons, List.drop_zero, List.reverse_reverse]
  by_cases empty : segs = []
  · simp [empty]
  · have chars := toList_ofSegments empty
    rw [← chars, if_neg, String.ofList_toList]
    rw [chars]
    obtain ⟨first, rest, rfl⟩ := List.exists_cons_of_ne_nil empty
    simp

/-- The last name of a path is its last segment. -/
theorem name_ofSegments (segs : List String) (valid : IsName n) : name (ofSegments (segs ++ [n])) = n := by
  rw [name, toList_ofSegments_concat, takeWhile_name valid, List.reverse_reverse, String.ofList_toList]

/-- Joining adds a last segment. -/
theorem join_ofSegments (names : ∀ s ∈ segs, IsName s) (n : String) :
    join (ofSegments segs) n = ofSegments (segs ++ [n]) := by
  apply String.toList_injective
  rw [toList_ofSegments_concat, join]
  split
  · next root => simp [(ofSegments_eq_root_iff names).mp root]
  · next notRoot =>
    have nonempty := mt (ofSegments_eq_root_iff names).mpr notRoot
    rw [String.toList_append, String.toList_append, toList_ofSegments nonempty]
    simp

/-- The ancestors of a path are its parent, unless that is the root, and the ancestors of that. -/
theorem ancestors_concat (names : ∀ s ∈ segs, IsName s) (valid : IsName n) :
    ancestors (ofSegments (segs ++ [n])) =
      if segs = [] then [] else ofSegments segs :: ancestors (ofSegments segs) := by
  rw [ancestors, segments_ofSegments (names_concat names valid), parent_ofSegments segs valid, List.length_append]
  simp only [List.length_singleton, climb, ofSegments_eq_root_iff names]
  rw [ancestors, segments_ofSegments names]

/-- A path lies within another exactly if its segments begin with those of the other. -/
theorem isWithin_ofSegments {others : List String} (names : ∀ s ∈ segs, IsName s)
    (otherNames : ∀ s ∈ others, IsName s) :
    isWithin (ofSegments segs) (ofSegments others) = true ↔ others <+: segs := by
  by_cases root : others = []
  · simp [root, isWithin]
  have notRoot := mt (ofSegments_eq_root_iff otherNames).mp root
  simp only [isWithin, Bool.or_eq_true, decide_eq_true_eq, notRoot, false_or, Text.startsWith_iff,
    ofSegments_inj names otherNames]
  constructor
  · rintro (rfl | ⟨rest, glued⟩)
    · exact List.prefix_rfl
    · have same : ofSegments segs = ofSegments others ++ String.singleton '/' ++ String.ofList rest := by
        apply String.toList_injective
        rw [← glued, slash_eq]
        simp
      have nonempty : segs ≠ [] := by
        rintro rfl
        have lengths := congrArg (fun s => s.toList.length) same
        have chars := toList_ofSegments root
        obtain ⟨first, others, rfl⟩ := List.exists_cons_of_ne_nil root
        simp [chars] at lengths
      have cut := congrArg (Text.split '/') same
      rw [Text.split_append, split_ofSegments names nonempty, split_ofSegments otherNames root,
        List.cons_append, List.cons.injEq] at cut
      exact ⟨_, cut.2.symm⟩
  · rintro ⟨rest, rfl⟩
    by_cases same : rest = []
    · simp [same]
    · right
      rw [String.toList_append, toList_ofSegments root, toList_ofSegments (by simp [root]), List.flatMap_append]
      obtain ⟨first, rest, rfl⟩ := List.exists_cons_of_ne_nil same
      exact ⟨first.toList ++ rest.flatMap fun s => '/' :: s.toList, by simp⟩

end TreeShell.Path
