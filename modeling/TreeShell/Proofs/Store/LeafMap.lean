import Mathlib.Data.List.Pairwise
import Mathlib.Data.Set.Finite.Lattice
import TreeShell.Proofs.Key.Components
import TreeShell.Proofs.Store.Canonical

/-! # The store as a map of leaves

What a store holds is a finite map from places to scalars in which no place is above another. A write
deletes the leaves at and below its place; if it brings leaves of its own it also takes the place of a
leaf above. `Store.get_after` says that the tree of mappings reads exactly as this map after every
sequence of calls, whatever the calls overwrite, delete or leave empty on their way.
-/

namespace TreeShell

namespace Value

/-- The scalar that a value is, if it is neither null nor a mapping. -/
def leaf? : Value → Option Value
  | .null => none
  | .mapping _ => none
  | v => some v

/-- The scalar at a place in a value. -/
def leafAt (v : Value) (place : List String) : Option Value :=
  (v.find place).leaf?

@[simp] theorem leaf?_settle (v : Value) : v.settle.leaf? = v.leaf? := by
  cases v with
  | mapping entries => cases entries <;> rfl
  | _ => rfl

@[simp] theorem leaf?_prune (v : Value) : v.prune.leaf? = v.leaf? := by
  cases v with
  | mapping entries => rw [prune_eq_settle_mapping, leaf?_settle]; rfl
  | _ => rfl

theorem leaf?_eq_some_iff {v c : Value} :
    v.leaf? = some c ↔ v = c ∧ v ≠ .null ∧ v.isMapping = false := by
  cases v <;> simp [leaf?, isMapping]

@[simp] theorem leafAt_null (place : List String) : leafAt .null place = none := by
  simp [leafAt, leaf?]

/-- Below a scalar there is nothing. -/
theorem leafAt_below {v : Value} {place : List String} (held : (v.leafAt place).isSome) (name : String)
    (rest : List String) : v.leafAt (place ++ name :: rest) = none := by
  obtain ⟨c, found⟩ := Option.isSome_iff_exists.mp held
  have scalar := (leaf?_eq_some_iff.mp found).2.2
  rw [leafAt, find_append, find_cons_of_not_mapping scalar]
  rfl

theorem leafAt_prune {v : Value} (distinct : v.Distinct) (place : List String) :
    v.prune.leafAt place = v.leafAt place := by
  rw [leafAt, find_prune distinct, leaf?_prune, leafAt]

/-- An entry that does not vanish stays when its mapping is pruned. -/
theorem mem_pruneEntries {entries : Entries} {e : String × Value} (member : e ∈ entries)
    (present : e.2.prune ≠ .null) : (e.1, e.2.prune) ∈ pruneEntries entries := by
  induction entries with
  | nil => simp at member
  | cons first rest ih =>
    obtain ⟨n, v⟩ := first
    rw [pruneEntries]
    rcases List.mem_cons.mp member with rfl | later
    · cases pruned : prune v with
      | null => exact absurd pruned present
      | _ => simp
    · cases prune v with
      | null => exact ih later
      | _ => exact List.mem_cons_of_mem _ (ih later)

/-- A value with a leaf does not vanish. -/
theorem prune_ne_null_of_leafAt {v : Value} {place : List String} (held : (v.leafAt place).isSome) :
    v.prune ≠ .null := by
  induction place generalizing v with
  | nil =>
    intro vanished
    rw [leafAt, find_nil, ← leaf?_prune, vanished] at held
    simp [leaf?] at held
  | cons name place ih =>
    cases v with
    | mapping entries =>
      rw [leafAt, find_mapping_cons] at held
      cases found : Assoc.get? entries name with
      | none => simp [found, leaf?] at held
      | some w =>
        rw [found, Option.getD_some] at held
        have kept := mem_pruneEntries (Assoc.mem_of_get? found) (ih held)
        rw [prune_eq_settle_mapping]
        cases pruned : pruneEntries entries with
        | nil => simp [pruned] at kept
        | cons e rest => simp [settle]
    | _ => simp [leafAt, find, leaf?] at held

/-- A stored value that is not null has a leaf. -/
theorem exists_leafAt : (v : Value) → v.Canonical → ∃ place, (v.leafAt place).isSome
  | .mapping [], canonical => absurd rfl canonical.1
  | .mapping ((name, v) :: rest), canonical => by
    obtain ⟨place, held⟩ := exists_leafAt v canonical.2.1
    refine ⟨name :: place, ?_⟩
    rwa [leafAt, find_mapping_cons, Assoc.get?_cons, if_pos rfl]
  | .bool _, _ | .int _, _ | .real _, _ | .text _, _ | .list _, _ => ⟨[], rfl⟩

mutual

/-- The places of a value that can hold a leaf. -/
def places : Value → List (List String)
  | .mapping entries => placesOf entries
  | _ => [[]]

def placesOf : List (String × Value) → List (List String)
  | [] => []
  | (name, v) :: rest => (places v).map (name :: ·) ++ placesOf rest

end

theorem mem_placesOf {entries : Entries} {e : String × Value} (member : e ∈ entries) {place : List String}
    (inside : place ∈ e.2.places) : e.1 :: place ∈ placesOf entries := by
  induction entries with
  | nil => simp at member
  | cons first rest ih =>
    rcases List.mem_cons.mp member with rfl | later
    · exact List.mem_append_left _ (List.mem_map_of_mem inside)
    · exact List.mem_append_right _ (ih later)

theorem mem_places {v : Value} {place : List String} (held : (v.leafAt place).isSome) : place ∈ v.places := by
  induction place generalizing v with
  | nil => cases v <;> first | exact List.mem_singleton_self _ | simp [leafAt, leaf?] at held
  | cons name place ih =>
    cases v with
    | mapping entries =>
      rw [leafAt, find_mapping_cons] at held
      cases found : Assoc.get? entries name with
      | none => simp [found, leaf?] at held
      | some w =>
        rw [found, Option.getD_some] at held
        exact mem_placesOf (Assoc.mem_of_get? found) (ih held)
    | _ => simp [leafAt, find, leaf?] at held

end Value

/-- Finitely many leaves at places below the root, none of them above another. -/
@[ext] structure LeafMap where
  leaf : List String → Option Value
  root : leaf [] = none
  scalar : ∀ {place v}, leaf place = some v → v.leaf? = some v
  prefixFree : ∀ {place}, (leaf place).isSome → ∀ name rest, leaf (place ++ name :: rest) = none
  finite : {place | (leaf place).isSome}.Finite

namespace LeafMap

/-- The leaves of a value below its root. -/
def ofValue (v : Value) : LeafMap where
  leaf place := if place = [] then none else v.leafAt place
  root := if_pos rfl
  scalar := by
    intro place c held
    split at held
    · cases held
    · obtain ⟨rfl, rest⟩ := Value.leaf?_eq_some_iff.mp held
      exact Value.leaf?_eq_some_iff.mpr ⟨rfl, rest⟩
  prefixFree := by
    intro place held name rest
    split at held
    · simp at held
    · simpa using Value.leafAt_below held name rest
  finite := by
    refine (List.finite_toSet v.places).subset fun place held => ?_
    by_cases atRoot : place = []
    · simp [atRoot] at held
    · simp only [Set.mem_ofPred_eq, if_neg atRoot] at held
      exact Value.mem_places held

/-- The leaves after a value is written at a place. At the root it replaces everything. Elsewhere the
leaves at and below the place give way to those of the value, and unless the value vanishes when it is
pruned, so does a leaf above the place. -/
def set (place : List String) (v : Value) (leaves : LeafMap) : LeafMap where
  leaf other :=
    if place = [] then (ofValue v).leaf other
    else if place <+: other then v.leafAt (other.drop place.length)
    else if other <+: place ∧ v.prune ≠ .null then none
    else leaves.leaf other
  root := by
    split
    · exact (ofValue v).root
    · next below => simp [below, leaves.root]
  scalar := by
    intro other c held
    split at held
    · exact (ofValue v).scalar held
    · split at held
      · obtain ⟨rfl, rest⟩ := Value.leaf?_eq_some_iff.mp held
        exact Value.leaf?_eq_some_iff.mpr ⟨rfl, rest⟩
      · split at held
        · cases held
        · exact leaves.scalar held
  prefixFree := by
    intro other held name rest
    by_cases atRoot : place = []
    · simp only [if_pos atRoot] at held ⊢
      exact (ofValue v).prefixFree held name rest
    simp only [if_neg atRoot] at held ⊢
    by_cases below : place <+: other
    · rw [if_pos below] at held
      rw [if_pos (below.trans (List.prefix_append ..)), List.drop_append_of_le_length below.length_le]
      exact Value.leafAt_below held name rest
    · rw [if_neg below] at held
      split at held
      · simp at held
      · next stays =>
        by_cases inside : place <+: other ++ name :: rest
        · rw [if_pos inside]
          -- the place lies between the leaf and what is below it, so the leaf can only have stayed if the
          -- value vanishes
          have above : other <+: place :=
            (List.prefix_or_prefix_of_prefix inside (List.prefix_append ..)).resolve_left below
          by_contra leafBelow
          have present := Value.prune_ne_null_of_leafAt (Option.isSome_iff_ne_none.mpr leafBelow)
          exact stays ⟨above, present⟩
        · rw [if_neg inside]
          split
          · rfl
          · exact leaves.prefixFree held name rest
  finite := by
    refine (((ofValue v).finite.union (v.places.map (place ++ ·)).finite_toSet).union leaves.finite).subset ?_
    intro other held
    by_cases atRoot : place = []
    · exact .inl (.inl (by simpa [atRoot] using held))
    · simp only [Set.mem_ofPred_eq, if_neg atRoot] at held
      by_cases below : place <+: other
      · obtain ⟨rest, rfl⟩ := below
        rw [if_pos (List.prefix_append ..), List.drop_left] at held
        exact .inl (.inr (List.mem_map_of_mem (Value.mem_places held)))
      · rw [if_neg below] at held
        split at held
        · simp at held
        · exact .inr held

theorem leaf_ofValue_cons (v : Value) (name : String) (place : List String) :
    (ofValue v).leaf (name :: place) = v.leafAt (name :: place) := by
  simp [ofValue]

@[simp] theorem set_root (v : Value) (leaves : LeafMap) : leaves.set [] v = ofValue v := by
  ext : 1
  simp [set]

theorem leaf_set {place : List String} (notRoot : place ≠ []) (v : Value) (leaves : LeafMap)
    (other : List String) :
    (leaves.set place v).leaf other =
      if place <+: other then v.leafAt (other.drop place.length)
      else if other <+: place ∧ v.prune ≠ .null then none
      else leaves.leaf other := by
  rw [set]
  exact if_neg notRoot

/-- Writes at places that are apart can change their order. -/
theorem set_comm {place other : List String} (apart : Apart place other) (v w : Value) (leaves : LeafMap) :
    (leaves.set place v).set other w = (leaves.set other w).set place v := by
  have notRoot : place ≠ [] := by
    rintro rfl
    exact apart.1 List.nil_prefix
  have notRoot' : other ≠ [] := by
    rintro rfl
    exact apart.2 List.nil_prefix
  ext1
  funext q
  simp only [leaf_set notRoot, leaf_set notRoot']
  by_cases below : place <+: q
  · have notBelow : ¬ other <+: q := fun h =>
      (List.prefix_or_prefix_of_prefix below h).elim apart.1 apart.2
    have notAbove : ¬ q <+: other := fun h => apart.1 (below.trans h)
    rw [if_neg notBelow, if_neg (fun both => notAbove both.1), if_pos below, if_pos below]
  · by_cases below' : other <+: q
    · have notAbove : ¬ q <+: place := fun h => apart.2 (below'.trans h)
      rw [if_pos below', if_neg below, if_neg (fun both => notAbove both.1), if_pos below']
    · rw [if_neg below', if_neg below, if_neg below', if_neg below]
      split <;> split <;> rfl

/-- The leaves after a call: deleting writes null, and a change of several keys writes them in turn. -/
def apply (leaves : LeafMap) : StoreCall → LeafMap
  | .get _ => leaves
  | .set key v => leaves.set (Key.components key) v
  | .update key pairs => pairs.foldl (fun leaves p => leaves.set (Key.components (key ++ "/" ++ p.1)) p.2) leaves
  | .remove key => leaves.set (Key.components key) .null

/-- The entries of a change can come in any order if no key in it is at or above another. -/
theorem apply_update_perm (leaves : LeafMap) (key : String) {pairs pairs' : List (String × Value)}
    (reordered : pairs.Perm pairs')
    (apart : pairs.Pairwise fun p q => Apart (Key.components p.1) (Key.components q.1)) :
    leaves.apply (.update key pairs) = leaves.apply (.update key pairs') := by
  refine reordered.foldl_eq' ?_ leaves
  intro p member q member' between
  by_cases same : p = q
  · rw [same]
  · have : Std.Symm fun p q : String × Value => Apart (Key.components p.1) (Key.components q.1) :=
      ⟨fun _ _ h => h.symm⟩
    have apartChildren := apart.forall member member' same
    simp only [Key.components_append]
    refine set_comm ?_ _ _ _
    simpa only [Apart, List.prefix_append_right_inj] using apartChildren

end LeafMap

end TreeShell
