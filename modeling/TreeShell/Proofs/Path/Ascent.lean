import Mathlib.Data.List.Basic
import Mathlib.Logic.Function.Iterate
import Mathlib.Order.Defs.Unbundled
import TreeShell.Proofs.Path.Resolved

/-! # Going up a path

A step up drops the last segment of a path and stops at the root. So the paths above a resolved path are those whose
segments begin its own, and going up passes each of them once until it comes to the root, after as many steps as the
path has segments. All functions on paths speak of this one list (`IsResolved.follows_segments`).
-/

namespace TreeShell.Path

variable {segs : List String} {path other : String}

theorem names_take (names : ∀ s ∈ segs, IsName s) (n : Nat) : ∀ s ∈ segs.take n, IsName s :=
  fun s member => names s (List.take_subset _ _ member)

/-- A step up drops the last segment, and none at the root. -/
theorem parent_ofSegments_dropLast (names : ∀ s ∈ segs, IsName s) :
    parent (ofSegments segs) = ofSegments segs.dropLast := by
  rcases segs.eq_nil_or_concat' with rfl | ⟨front, last, rfl⟩
  · rw [List.dropLast_nil, ofSegments_nil]
    decide
  · have valid : IsName last := names last (List.mem_append_right _ (List.mem_singleton_self _))
    rw [parent_ofSegments front valid, List.dropLast_concat]

/-- What is left after some steps up. -/
theorem iterate_parent_ofSegments (names : ∀ s ∈ segs, IsName s) (k : Nat) :
    parent^[k] (ofSegments segs) = ofSegments (segs.take (segs.length - k)) := by
  induction k with
  | zero => rw [Nat.sub_zero, List.take_length, Function.iterate_zero_apply]
  | succ k ih =>
    have length : (segs.take (segs.length - k)).length = segs.length - k :=
      List.length_take_of_le (Nat.sub_le _ _)
    rw [Function.iterate_succ_apply', ih, parent_ofSegments_dropLast (names_take names _), List.dropLast_eq_take,
      length, List.take_take, Nat.sub_sub, Nat.min_eq_left (Nat.sub_le_sub_left (Nat.le_succ k) _)]

/-- A climb passes what the steps up come to before the root, as long as it may take that many steps. -/
theorem climb_eq {steps n : Nat} (ends : parent^[n] path = "/") (before : ∀ k < n, parent^[k] path ≠ "/")
    (enough : n ≤ steps) : climb steps path = (List.range n).map fun k => parent^[k] path := by
  induction n generalizing steps path with
  | zero =>
    rw [Function.iterate_zero_apply] at ends
    cases steps with
    | zero => rfl
    | succ steps => rw [climb, if_pos ends, List.range_zero, List.map_nil]
  | succ n ih =>
    obtain ⟨steps, rfl⟩ := Nat.exists_eq_add_of_le' enough
    have notRoot : path ≠ "/" := before 0 (Nat.succ_pos n)
    have rest : climb (steps + n) (parent path) = (List.range n).map fun k => parent^[k] (parent path) :=
      ih ends (fun k less => before (k + 1) (Nat.succ_lt_succ less)) (Nat.le_add_left ..)
    rw [← Nat.add_assoc, climb, if_neg notRoot, rest, List.range_succ_eq_map, List.map_cons, List.map_map]
    rfl

namespace IsResolved

/-- The root is reached after as many steps up as there are segments. -/
theorem iterate_parent_eq_root_iff (resolved : IsResolved path) (k : Nat) :
    Path.parent^[k] path = "/" ↔ (segments path).length ≤ k := by
  obtain ⟨segs, names, rfl⟩ := resolved.exists_names
  rw [iterate_parent_ofSegments names, ofSegments_eq_root_iff (names_take names _), segments_ofSegments names,
    List.take_eq_nil_iff, Nat.sub_eq_zero_iff_le, ← List.length_eq_zero_iff]
  omega

/-- The paths that the steps up come to, the root among them, are those above. -/
theorem exists_iterate_parent_iff (resolved : IsResolved path) (other : String) :
    (∃ k, 0 < k ∧ k ≤ (segments path).length ∧ Path.parent^[k] path = other) ↔
      IsResolved other ∧ isWithin path other = true ∧ other ≠ path := by
  obtain ⟨segs, proper, rfl⟩ := isResolved_iff.mp resolved
  have names (s : String) (member : s ∈ segs) : IsName s := (proper s member).1
  rw [segments_ofSegments names]
  constructor
  · rintro ⟨k, positive, bound, rfl⟩
    have kept (s : String) (member : s ∈ segs.take (segs.length - k)) : IsProper s :=
      proper s (List.take_subset _ _ member)
    rw [iterate_parent_ofSegments names, isWithin_ofSegments names (names_take names _), ne_eq,
      ofSegments_inj (names_take names _) names]
    refine ⟨isResolved_iff.mpr ⟨_, kept, rfl⟩, List.take_prefix .., fun whole => ?_⟩
    have lengths := congrArg List.length whole
    rw [List.length_take] at lengths
    omega
  · rintro ⟨otherResolved, within, differs⟩
    obtain ⟨others, otherNames, rfl⟩ := otherResolved.exists_names
    rw [isWithin_ofSegments names otherNames] at within
    have shorter : others.length < segs.length := by
      refine lt_of_le_of_ne within.length_le fun same => differs ?_
      rw [within.eq_of_length same]
    refine ⟨segs.length - others.length, Nat.sub_pos_of_lt shorter, Nat.sub_le .., ?_⟩
    rw [iterate_parent_ofSegments names, Nat.sub_sub_self shorter.le, ← List.prefix_iff_eq_take.mp within]

/-- The walk over the ancestors of a path takes every step up but the one that comes to the root. -/
theorem ancestors_eq (resolved : IsResolved path) :
    ancestors path = (List.range ((segments path).length - 1)).map fun k => Path.parent^[k + 1] path := by
  have above (k : Nat) : Path.parent^[k] (Path.parent path) = "/" ↔ (segments path).length ≤ k + 1 :=
    resolved.iterate_parent_eq_root_iff (k + 1)
  refine climb_eq ((above _).mpr ?_) (fun k less => mt (above k).mp ?_) (Nat.sub_le ..)
  · omega
  · omega

/-- Being within a path is an order. -/
theorem isPartialOrder_isWithin : IsPartialOrder {p : String // IsResolved p} fun p q => isWithin p.1 q.1 = true where
  refl p := p.2.isWithin_self
  trans p q r first second := p.2.isWithin_trans q.2 r.2 first second
  antisymm := by
    rintro ⟨p, resolved⟩ ⟨q, otherResolved⟩ below above
    obtain ⟨segs, names, rfl⟩ := resolved.exists_names
    obtain ⟨others, otherNames, rfl⟩ := otherResolved.exists_names
    rw [isWithin_ofSegments names otherNames] at below
    rw [isWithin_ofSegments otherNames names] at above
    exact Subtype.ext (congrArg ofSegments (above.eq_of_length_le below.length_le))

/-- All functions on paths speak of the segments of a resolved path. Joining adds one at the end, which the parent drops and
the name gives back; a path lies within another if its segments begin with those of the other, which is an order with the
root above all; and going up passes exactly the paths above until it comes to the root, after as many steps as there are
segments. -/
theorem follows_segments (resolved : IsResolved path) :
    (∀ n, IsName n →
      segments (Path.join path n) = segments path ++ [n] ∧ Path.parent (Path.join path n) = path ∧
        name (Path.join path n) = n) ∧
    (path ≠ "/" → Path.join (Path.parent path) (name path) = path) ∧
    (∀ other, IsResolved other → (isWithin path other = true ↔ segments other <+: segments path)) ∧
    (IsPartialOrder {p : String // IsResolved p} fun p q => isWithin p.1 q.1 = true) ∧
    isWithin path "/" = true ∧
    (∀ k, Path.parent^[k] path = "/" ↔ (segments path).length ≤ k) ∧
    (∀ other, (∃ k, 0 < k ∧ k ≤ (segments path).length ∧ Path.parent^[k] path = other) ↔
      IsResolved other ∧ isWithin path other = true ∧ other ≠ path) ∧
    ancestors path = (List.range ((segments path).length - 1)).map fun k => Path.parent^[k + 1] path := by
  refine ⟨fun n valid => ?_, resolved.join_parent_name, fun other otherResolved => ?_, isPartialOrder_isWithin, ?_,
    resolved.iterate_parent_eq_root_iff, resolved.exists_iterate_parent_iff, resolved.ancestors_eq⟩
  · obtain ⟨segs, names, rfl⟩ := resolved.exists_names
    rw [join_ofSegments names, segments_ofSegments (names_concat names valid), segments_ofSegments names,
      parent_ofSegments segs valid, name_ofSegments segs valid]
    exact ⟨rfl, rfl, rfl⟩
  · obtain ⟨segs, names, rfl⟩ := resolved.exists_names
    obtain ⟨others, otherNames, rfl⟩ := otherResolved.exists_names
    rw [isWithin_ofSegments names otherNames, segments_ofSegments names, segments_ofSegments otherNames]
  · rfl

/-- Two steps up from a path with two segments lead to the root, past one directory, and dots can be a name below it. -/
theorem follows_segments_below_dots :
    segments (Path.join "/a/..b" "..") = segments "/a/..b" ++ [".."] ∧ Path.parent^[2] "/a/..b" = "/" ∧
      ancestors "/a/..b" = [Path.parent "/a/..b"] := by
  have resolved : IsResolved "/a/..b" := isResolved_iff.mpr ⟨["a", "..b"], by decide, by decide +kernel⟩
  obtain ⟨child, -, -, -, -, root, -, walk⟩ := resolved.follows_segments
  have two : (segments "/a/..b").length = 2 := by decide +kernel
  rw [two] at walk
  exact ⟨(child ".." (by decide)).1, (root 2).mpr two.le, walk⟩

end IsResolved

end TreeShell.Path
