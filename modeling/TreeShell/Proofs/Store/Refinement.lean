import TreeShell.Proofs.Store.LeafMap

/-! # The store refines its map of leaves

One write changes the tree as `LeafMap.set` changes the leaves (`Holds.put`), so by induction every
sequence of calls keeps the two in step (`Holds.after`). What a key reads is then settled by the leaves
alone: the scalar at the key, the mapping of the leaves below it, or nothing.
-/

namespace TreeShell

namespace Entries

open Value

/-- A write seen at the leaves. -/
theorem leafAt_put {place : List String} (notRoot : place ≠ []) {value : Value} (settled : value.Settled)
    (entries : Entries) (other : List String) :
    leafAt (.mapping (put place value entries)) other =
      if place <+: other then value.leafAt (other.drop place.length)
      else if other <+: place ∧ value ≠ .null then none
      else leafAt (.mapping entries) other := by
  obtain ⟨first, place, rfl⟩ := List.exists_cons_of_ne_nil notRoot
  rcases prefix_or_apart (first :: place) other with ⟨rest, rfl⟩ | ⟨next, rest, same⟩ | apart
  · rw [if_pos (List.prefix_append ..), List.drop_left, leafAt, find_put_below, settled.settle_eq, leafAt]
  · have notBelow : ¬ (first :: place) <+: other := by
      intro below
      have shorter := below.length_le
      rw [same, List.length_append, List.length_cons] at shorter
      omega
    rw [if_neg notBelow, same]
    cases other with
    | nil => simp [leafAt, leaf?]
    | cons name other =>
      rw [leafAt, find_put_above, leaf?_settle]
      by_cases vanishes : value = .null
      · subst vanishes
        rw [if_neg (fun both => both.2 rfl), leafAt, putUnder]
        cases find (.mapping entries) (name :: other) <;> rfl
      · rw [putUnder, if_neg (fun both => vanishes both.1), if_pos ⟨List.prefix_append .., vanishes⟩]
        rfl
  · rw [if_neg apart.1, if_neg (fun both => apart.2 both.1), leafAt, find_put_apart apart, leafAt]

end Entries

/-- Whether no mapping that a call brings gives one name twice. -/
def StoreCall.Distinct : StoreCall → Prop
  | .set _ v => v.Distinct
  | .update _ pairs => ∀ p ∈ pairs, p.2.Distinct
  | _ => True

instance : (call : StoreCall) → Decidable call.Distinct
  | .get _ | .remove _ => .isTrue trivial
  | .set _ v => inferInstanceAs (Decidable v.Distinct)
  | .update _ pairs => inferInstanceAs (Decidable (∀ p ∈ pairs, p.2.Distinct))

namespace Store

/-- The content after a sequence of calls. -/
def after (s : Store) (calls : List StoreCall) : Store :=
  calls.foldl (fun s call => (s.perform call).2) s

/-- Whether a store holds exactly the given leaves, in a tree without nulls, empty mappings and repeated
names. -/
structure Holds (s : Store) (leaves : LeafMap) : Prop where
  canonical : Value.CanonicalEntries s.root
  distinct : (Value.mapping s.root).Distinct
  leafAt_eq : ∀ place, (Value.mapping s.root).leafAt place = leaves.leaf place

variable {s : Store} {leaves : LeafMap}

theorem holds_ofValue {data : Value} (distinct : data.Distinct) :
    (ofValue data).Holds (LeafMap.ofValue data) := by
  have canonical := Value.settled_prune data
  have distinctPruned := Value.distinct_prune data distinct
  refine ⟨?_, ?_, fun place => ?_⟩
  · have empty : Value.CanonicalEntries [] := trivial
    exact Entries.canonical_put [] canonical empty
  · have empty : (Value.mapping []).Distinct := ⟨.nil, trivial⟩
    exact Entries.distinct_put [] distinctPruned empty
  · cases place with
    | nil => rfl
    | cons name place =>
      rw [LeafMap.leaf_ofValue_cons, ← Value.leafAt_prune distinct, ofValue]
      cases data.prune <;> rfl

/-- A write keeps store and leaves in step. -/
theorem Holds.put (holds : s.Holds leaves) (place : List String) {value : Value} (distinct : value.Distinct) :
    (s.put place value).Holds (leaves.set place value) := by
  have settled := Value.settled_prune value
  refine ⟨Entries.canonical_put place settled holds.canonical,
    Entries.distinct_put place (Value.distinct_prune value distinct) holds.distinct, fun other => ?_⟩
  by_cases atRoot : place = []
  · subst atRoot
    rw [LeafMap.set_root]
    exact (holds_ofValue distinct).leafAt_eq other
  · rw [Store.put, Entries.leafAt_put atRoot settled, LeafMap.leaf_set atRoot, Value.leafAt_prune distinct,
      holds.leafAt_eq]

/-- A call keeps store and leaves in step. -/
theorem Holds.perform (holds : s.Holds leaves) {call : StoreCall} (distinct : call.Distinct) :
    (s.perform call).2.Holds (leaves.apply call) := by
  cases call with
  | get key => exact holds
  | set key value => exact holds.put _ distinct
  | remove key => exact holds.put _ trivial
  | update key pairs =>
    simp only [Store.perform, Store.update, LeafMap.apply, Key.components_append]
    induction pairs generalizing s leaves with
    | nil => exact holds
    | cons p rest ih =>
      exact ih (holds.put _ (distinct p (List.mem_cons_self ..)))
        (fun q member => distinct q (List.mem_cons_of_mem _ member))

/-- Every sequence of calls keeps store and leaves in step. -/
theorem Holds.after (holds : s.Holds leaves) {calls : List StoreCall}
    (distinct : ∀ call ∈ calls, call.Distinct) :
    (s.after calls).Holds (calls.foldl LeafMap.apply leaves) := by
  induction calls generalizing s leaves with
  | nil => exact holds
  | cons call rest ih =>
    exact ih (holds.perform (distinct call (List.mem_cons_self ..)))
      (fun other member => distinct other (List.mem_cons_of_mem _ member))

/-- What a look-up finds has the leaves at and below its place. -/
theorem Holds.leafAt_find (holds : s.Holds leaves) (place rest : List String) :
    (s.find place).leafAt rest = leaves.leaf (place ++ rest) := by
  rw [find_eq_settle, ← holds.leafAt_eq, Value.leafAt, Value.leafAt, Value.find_append]
  cases rest with
  | nil => simp
  | cons name rest => rw [Value.find_settle_cons]

theorem Holds.settled_find (holds : s.Holds leaves) (place : List String) : (s.find place).Settled := by
  have root := Value.settled_settle holds.canonical
  rw [find_eq_settle]
  cases place with
  | nil => simpa using root
  | cons name place =>
    have found := root.find (name :: place)
    rw [Value.find_settle_cons] at found
    exact found.settle_eq.symm ▸ found

theorem Holds.distinct_find (holds : s.Holds leaves) (place : List String) : (s.find place).Distinct :=
  find_eq_settle s place ▸ (holds.distinct.find place).settle

/-- Where a leaf is, a look-up finds the leaf. -/
theorem Holds.find_of_leaf (holds : s.Holds leaves) {place : List String} {c : Value}
    (leaf : leaves.leaf place = some c) : s.find place = c := by
  have found := holds.leafAt_find place []
  rw [List.append_nil, leaf, Value.leafAt, Value.find_nil] at found
  exact (Value.leaf?_eq_some_iff.mp found).1

/-- Where no leaf is at or below a place, a look-up finds nothing. -/
theorem Holds.find_of_no_leaf (holds : s.Holds leaves) {place : List String}
    (bare : ∀ rest, leaves.leaf (place ++ rest) = none) : s.find place = .null := by
  rcases holds.settled_find place with null | canonical
  · exact null
  · obtain ⟨rest, held⟩ := Value.exists_leafAt _ canonical
    rw [holds.leafAt_find, bare rest] at held
    simp at held

/-- Where leaves are below a place and none is at it, a look-up finds the mapping of these leaves. -/
theorem Holds.find_of_leaf_below (holds : s.Holds leaves) {place rest : List String}
    (noLeaf : leaves.leaf place = none) (below : (leaves.leaf (place ++ rest)).isSome) :
    ∃ entries, s.find place = .mapping entries := by
  have atPlace := holds.leafAt_find place []
  rw [List.append_nil, noLeaf, Value.leafAt, Value.find_nil] at atPlace
  rw [← holds.leafAt_find] at below
  cases found : s.find place with
  | mapping entries => exact ⟨entries, rfl⟩
  | null => simp [found] at below
  | _ => simp [found, Value.leaf?] at atPlace

/-- After every sequence of calls the tree holds no null and no empty mapping, and each key reads as the
leaves say: the scalar at the key, the mapping of all leaves below it, or nothing. The entries of a
change can be applied in any order if no key in it is at or above another. -/
theorem get_after (data : Value) (calls : List StoreCall) (dataDistinct : data.Distinct)
    (distinct : ∀ call ∈ calls, call.Distinct) :
    let s := (ofValue data).after calls
    let leaves := calls.foldl LeafMap.apply (LeafMap.ofValue data)
    Value.CanonicalEntries s.root ∧
      (∀ key,
        (∀ c, leaves.leaf (Key.components key) = some c → s.get key = c) ∧
        (leaves.leaf (Key.components key) = none →
          (∃ rest, (leaves.leaf (Key.components key ++ rest)).isSome) →
          ∃ entries, s.get key = .mapping entries ∧ (Value.mapping entries).Canonical ∧
            (Value.mapping entries).Distinct ∧
            ∀ rest, (Value.mapping entries).leafAt rest = leaves.leaf (Key.components key ++ rest)) ∧
        ((∀ rest, leaves.leaf (Key.components key ++ rest) = none) → s.get key = .null)) ∧
      (∀ key pairs pairs', pairs.Perm pairs' →
        pairs.Pairwise (fun p q => Apart (Key.components p.1) (Key.components q.1)) →
        leaves.apply (.update key pairs) = leaves.apply (.update key pairs')) := by
  intro s leaves
  have holds : s.Holds leaves := (holds_ofValue dataDistinct).after distinct
  refine ⟨holds.canonical, fun key => ⟨fun c => holds.find_of_leaf, ?_, holds.find_of_no_leaf⟩,
    fun key pairs pairs' => leaves.apply_update_perm key⟩
  rintro noLeaf ⟨rest, below⟩
  obtain ⟨entries, found⟩ := holds.find_of_leaf_below noLeaf below
  refine ⟨entries, found, ?_, found ▸ holds.distinct_find _, fun rest => found ▸ holds.leafAt_find _ rest⟩
  exact (found ▸ holds.settled_find _ : (Value.mapping entries).Settled).resolve_left (by simp)

/-- A write through a text takes its place, and what it brings can be read. -/
theorem get_after_write_through_text :
    let data := Value.mapping [("a", .text "old"), ("b", .text "kept")]
    let calls := [StoreCall.set "a/x/y" (.text "new"), .update "/a/" [("x/z", .int 1), ("w", .null)]]
    data.Distinct ∧ (∀ call ∈ calls, call.Distinct) ∧
      ((ofValue data).after calls).get "a/x/y" = .text "new" := by
  intro data calls
  have dataDistinct : data.Distinct := by decide
  have distinct : ∀ call ∈ calls, call.Distinct := by decide
  exact ⟨dataDistinct, distinct, ((get_after data calls dataDistinct distinct).2.1 "a/x/y").1 _ (by decide)⟩

end Store

end TreeShell
