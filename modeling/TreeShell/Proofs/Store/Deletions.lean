import TreeShell.Proofs.Store.Leaves

/-! # Writes that change nothing, and deletions

Writing what stands at a place leaves the whole tree as it is, order included; that goes for deleting where
nothing stands as long as the tree holds no empty mapping (`Entries.put_of_find`). So a value outlasts deletions
elsewhere exactly if none of them is made above it or at something in it (`Store.find_deleteAll_iff`).
-/

namespace TreeShell

namespace Assoc

variable {α : Type} {entries : Assoc α} {name : String} {value : α}

theorem insert_of_get? (found : get? entries name = some value) : insert name value entries = entries := by
  induction entries with
  | nil => simp at found
  | cons e rest ih =>
    obtain ⟨n, v⟩ := e
    rw [get?_cons] at found
    rw [insert]
    by_cases same : name = n
    · rw [if_pos same] at found
      rw [if_pos same.symm, Option.some.inj found]
    · rw [if_neg same] at found
      rw [if_neg (Ne.symm same), ih found]

theorem erase_of_get? (absent : get? entries name = none) : erase name entries = entries := by
  refine List.filter_eq_self.mpr fun e member => ?_
  have differs : e.1 ≠ name := by
    rintro rfl
    exact get?_eq_none_iff.mp absent (mem_names_of_mem member)
  simpa using differs

end Assoc

namespace Value

theorem get?_of_find {entries : Entries} {name : String} {v : Value} (found : find (.mapping entries) [name] = v)
    (there : v ≠ .null) : Assoc.get? entries name = some v := by
  rw [find_mapping_cons, find_nil] at found
  cases held : Assoc.get? entries name with
  | none => exact absurd (by simpa [held] using found.symm) there
  | some w => simpa [held] using found

end Value

namespace Entries

open Value

variable {entries : Entries} {name : String} {place : List String} {value : Value}

/-- Storing what a name has changes nothing. -/
theorem store_of_find (settled : value.settle = value) (canonical : value = .null → CanonicalEntries entries)
    (found : find (.mapping entries) [name] = value) : store name value entries = entries := by
  by_cases absent : value = .null
  · subst absent
    refine Assoc.erase_of_get? ?_
    rw [find_mapping_cons, find_nil] at found
    cases held : Assoc.get? entries name with
    | none => rfl
    | some v =>
      rw [held, Option.getD_some] at found
      have stored := canonicalEntries_iff.mp (canonical rfl) _ (Assoc.mem_of_get? held)
      rw [found] at stored
      exact stored.elim
  · have inserted := Assoc.insert_of_get? (get?_of_find found absent)
    cases value with
    | null => exact absurd rfl absent
    | mapping under =>
      cases under with
      | nil => exact absurd settled nofun
      | cons e rest => exact inserted
    | _ => exact inserted

/-- Writing what stands at a place changes nothing. Where nothing stands that takes a tree without empty
mappings, since a deletion drops those that it passes. -/
theorem put_of_find (settled : value.settle = value) (canonical : value = .null → CanonicalEntries entries)
    (found : find (.mapping entries) (name :: place) = value) : put (name :: place) value entries = entries := by
  induction place generalizing name entries with
  | nil => exact store_of_find settled canonical found
  | cons next place ih =>
    rcases put_cons_cons name next place value entries with ⟨-, -, same⟩ | ⟨passes, stored⟩
    · exact same
    · have child : find (.mapping entries) [name] = (Assoc.get? entries name).getD .null := by
        rw [find_mapping_cons, find_nil]
      have split : find (.mapping entries) (name :: next :: place) =
          (find (.mapping entries) [name]).find (next :: place) := find_append _ [name] _
      rw [← child] at passes stored
      obtain ⟨under, mapping⟩ : ∃ under, find (.mapping entries) [name] = .mapping under := by
        refine (mapping_or_scalar _).resolve_right fun scalar => passes ⟨?_, scalar⟩
        rw [← found, split, find_cons_of_not_mapping scalar]
      have held := get?_of_find (v := .mapping under) mapping (by simp)
      have below (absent : value = .null) : (Value.mapping under).Canonical :=
        canonicalEntries_iff.mp (canonical absent) _ (Assoc.mem_of_get? held)
      rw [found, mapping] at split
      rw [stored, mapping, ofValue, ih (fun absent => (below absent).2) split.symm]
      -- the child is no empty mapping, since something stands in it or it is part of a canonical tree
      refine store_of_find ?_ (fun absent => absurd absent (by simp)) mapping
      cases under with
      | nil =>
        by_cases absent : value = .null
        · exact absurd rfl (below absent).1
        · exact absurd split absent
      | cons e rest => rfl

end Entries

/-- Whether a deletion at another place takes away from a value that stands at a place: it is made at or above
the place, or below it where the value has something. -/
def Value.Meets (value : Value) (place other : List String) : Prop :=
  other <+: place ∨ ∃ rest, other = place ++ rest ∧ value.find rest ≠ .null

theorem Value.meets_iff {value : Value} {place other : List String} : value.Meets place other ↔
    other <+: place ∨ (place <+: other ∧ value.find (other.drop place.length) ≠ .null) := by
  refine or_congr_right ⟨?_, ?_⟩
  · rintro ⟨rest, rfl, there⟩
    rw [List.drop_left]
    exact ⟨List.prefix_append .., there⟩
  · rintro ⟨⟨rest, rfl⟩, there⟩
    rw [List.drop_left] at there
    exact ⟨rest, rfl, there⟩

instance (value : Value) (place other : List String) : Decidable (value.Meets place other) :=
  decidable_of_iff _ Value.meets_iff.symm

theorem Apart.not_meets {place other : List String} (apart : Apart other place) (value : Value) :
    ¬ value.Meets place other := by
  rintro (above | ⟨rest, rfl, -⟩)
  · exact apart.1 above
  · exact apart.2 (List.prefix_append ..)

namespace Store

variable {s : Store} {place other : List String} {places : List (List String)} {value : Value}

/-- Writing what stands at a place changes nothing. -/
theorem put_of_find (notRoot : place ≠ []) (settled : value.Settled)
    (canonical : value = .null → Value.CanonicalEntries s.root) (found : s.find place = value) :
    s.put place value = s := by
  obtain ⟨name, place, rfl⟩ := List.exists_cons_of_ne_nil notRoot
  have whole : ((Value.mapping s.root).find (name :: place)).settle = (Value.mapping s.root).find (name :: place) := by
    by_cases absent : value = .null
    · have stored := (Value.settled_settle (canonical absent)).find (name :: place)
      rw [Value.find_settle_cons] at stored
      exact stored.settle_eq
    · refine Value.settle_of_settle_ne_null ?_
      rw [← find_eq_settle, found]
      exact absent
  rw [find_eq_settle, whole] at found
  rw [put, settled.prune_eq, Entries.put_of_find settled.settle_eq canonical found]

/-- Deleting where nothing stands changes nothing. -/
theorem put_null_of_find (notRoot : place ≠ []) (canonical : Value.CanonicalEntries s.root)
    (absent : s.find place = .null) : s.put place .null = s :=
  put_of_find notRoot (.inl rfl) (fun _ => canonical) absent

/-- The store after deletions at several places, one after the other. -/
def deleteAll (places : List (List String)) (s : Store) : Store :=
  places.foldl (fun s place => s.put place .null) s

@[simp] theorem deleteAll_nil (s : Store) : s.deleteAll [] = s := rfl

@[simp] theorem deleteAll_cons (place : List String) (rest : List (List String)) (s : Store) :
    s.deleteAll (place :: rest) = (s.put place .null).deleteAll rest := rfl

/-- Dropping passwords is deleting at their places. -/
theorem update_removals_eq_deleteAll (paths : List String) (s : Store) :
    s.update Key.passwords (Vault.removals paths) =
      s.deleteAll ((Vault.removals paths).map fun p => Key.components Key.passwords ++ Key.components p.1) := by
  have drops : ∀ p ∈ Vault.removals paths, p.2 = .null := by
    intro p member
    obtain ⟨path, -, rfl⟩ := mem_removals member
    rfl
  generalize Vault.removals paths = pairs at drops
  induction pairs generalizing s with
  | nil => rfl
  | cons p rest ih =>
    have tail := ih (s.put (Key.components Key.passwords ++ Key.components p.1) .null)
      fun q member => drops q (List.mem_cons_of_mem _ member)
    rw [List.map_cons, deleteAll_cons, ← tail, update, List.foldl_cons, drops p (List.mem_cons_self ..), update]

theorem canonical_deleteAll (places : List (List String)) (canonical : Value.CanonicalEntries s.root) :
    Value.CanonicalEntries (s.deleteAll places).root := by
  induction places generalizing s with
  | nil => exact canonical
  | cons first rest ih => exact ih (Entries.canonical_put _ (.inl rfl) canonical)

/-- Deletions bring no leaf. -/
theorem leafAt_deleteAll_of_none (notRoot : ∀ other ∈ places, other ≠ []) (bare : s.leafAt place = none) :
    (s.deleteAll places).leafAt place = none := by
  induction places generalizing s with
  | nil => exact bare
  | cons first rest ih =>
    refine ih (fun other member => notRoot other (List.mem_cons_of_mem _ member)) ?_
    rw [leafAt_put (notRoot first (List.mem_cons_self ..)), bare]
    split
    · exact Value.leafAt_null _
    · exact ite_self _

/-- No leaf is left at or below a place where a deletion was made. -/
theorem leafAt_deleteAll (notRoot : ∀ other ∈ places, other ≠ []) (deleted : ∃ other ∈ places, other <+: place)
    (s : Store) : (s.deleteAll places).leafAt place = none := by
  induction places generalizing s with
  | nil => simp at deleted
  | cons first rest ih =>
    have later (other : List String) (member : other ∈ rest) : other ≠ [] := notRoot other (List.mem_cons_of_mem _ member)
    obtain ⟨other, member, above⟩ := deleted
    rcases List.mem_cons.mp member with rfl | further
    · rw [deleteAll_cons]
      refine leafAt_deleteAll_of_none later ?_
      rw [leafAt_put (notRoot other (List.mem_cons_self ..)), if_pos above]
      exact Value.leafAt_null _
    · exact ih later ⟨other, further, above⟩ _

/-- Nothing stands where a deletion was made. -/
theorem find_deleteAll_of_mem (notRoot : ∀ other ∈ places, other ≠ []) (canonical : Value.CanonicalEntries s.root)
    (deleted : place ∈ places) : (s.deleteAll places).find place = .null := by
  have after := canonical_deleteAll places canonical
  obtain ⟨name, rest, rfl⟩ := List.exists_cons_of_ne_nil (notRoot place deleted)
  by_contra there
  obtain ⟨further, held⟩ := Value.exists_leafAt _ ((settled_find after name rest).resolve_left there)
  rw [← leafAt_append, leafAt_deleteAll notRoot ⟨_, deleted, List.prefix_append ..⟩] at held
  cases held

/-- A deletion that does not meet the value at a place leaves it there. -/
theorem find_put_null (notRoot : other ≠ []) (canonical : Value.CanonicalEntries s.root)
    (apart : ¬ (s.find place).Meets place other) : (s.put other .null).find place = s.find place := by
  rcases prefix_or_apart other place with ⟨rest, rfl⟩ | ⟨name, rest, rfl⟩ | aside
  · exact absurd (.inl (List.prefix_append ..)) apart
  · have absent : (s.find place).find (name :: rest) = .null := by
      by_contra there
      exact apart (.inr ⟨_, rfl, there⟩)
    rw [put_null_of_find notRoot canonical]
    rw [find_append, absent, Value.settle_null]
  · exact find_put_apart aside s .null

/-- A value outlasts deletions exactly if none of them meets it. -/
theorem find_deleteAll_iff (notRoot : ∀ other ∈ places, other ≠ []) (canonical : Value.CanonicalEntries s.root)
    (below : place ≠ []) (there : s.find place ≠ .null) :
    (s.deleteAll places).find place = s.find place ↔ ∀ other ∈ places, ¬ (s.find place).Meets place other := by
  constructor
  · intro kept other member meets
    have settled : (s.find place).Canonical := by
      obtain ⟨name, place, rfl⟩ := List.exists_cons_of_ne_nil below
      exact (settled_find canonical name place).resolve_left there
    -- a leaf of the value that the deletion takes
    obtain ⟨rest, held, deleted⟩ : ∃ rest, ((s.find place).leafAt rest).isSome ∧ other <+: place ++ rest := by
      rcases meets with above | ⟨rest, rfl, something⟩
      · obtain ⟨rest, held⟩ := Value.exists_leafAt _ settled
        exact ⟨rest, held, above.trans (List.prefix_append ..)⟩
      · obtain ⟨further, held⟩ := Value.exists_leafAt _ ((Value.Settled.find (.inr settled) rest).resolve_left something)
        refine ⟨rest ++ further, ?_, ?_⟩
        · rwa [Value.leafAt, Value.find_append]
        · rw [← List.append_assoc]
          exact List.prefix_append ..
    have gone := leafAt_deleteAll notRoot ⟨other, member, deleted⟩ s
    rw [leafAt_append, kept] at gone
    rw [gone] at held
    cases held
  · intro apart
    induction places generalizing s with
    | nil => rfl
    | cons first rest ih =>
      have stays := find_put_null (notRoot first (List.mem_cons_self ..)) canonical (apart first (List.mem_cons_self ..))
      have after : Value.CanonicalEntries (s.put first .null).root := Entries.canonical_put _ (.inl rfl) canonical
      rw [deleteAll_cons, ih (fun other member => notRoot other (List.mem_cons_of_mem _ member)) after (stays ▸ there)
        fun other member => stays.symm ▸ apart other (List.mem_cons_of_mem _ member), stays]

end Store

end TreeShell
