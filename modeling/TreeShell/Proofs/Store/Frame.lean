import TreeShell.Proofs.Key.Places
import TreeShell.Proofs.Store.Canonical
import TreeShell.Vault

/-! # What the writes of the verbs leave alone

Verbs write at nodes, at passwords and at working directories. A write at an ordinary path changes no
password, a new password changes one entry, and dropping the passwords of several paths empties just
their entries. No write to the passwords changes an ordinary node.
-/

namespace TreeShell

namespace Store

open Key (passwordPlace passwordEntry nodePlace IsOrdinary)
open Path (IsName IsResolved ofSegments)

variable {s : Store} {path name : String} {segs rest : List String}

/-! ## Nodes -/

theorem get_node (names : ∀ s ∈ segs, IsName s) (s : Store) :
    s.get (Key.node (ofSegments segs)) = s.find (nodePlace segs) := by
  rw [get, Key.components_node names]

/-- What stands below a node in the tree is found below its value. -/
theorem get_node_append (names : ∀ s ∈ segs, IsName s) (valids : ∀ s ∈ rest, IsName s)
    (s : Store) : s.get (Key.node (ofSegments (segs ++ rest))) =
      ((s.get (Key.node (ofSegments segs))).find (rest.map CodeTable.segment.escape)).settle := by
  have below : nodePlace (segs ++ rest) = nodePlace segs ++ rest.map CodeTable.segment.escape := by
    simp [nodePlace]
  rw [get_node names, get_node (Path.names_append names valids), below, find_append]

theorem settled_find (canonical : Value.CanonicalEntries s.root) (name : String) (place : List String) :
    (s.find (name :: place)).Settled := by
  have whole := (Value.settled_settle canonical).find (name :: place)
  rw [Value.find_settle_cons] at whole
  rw [find_eq_settle, whole.settle_eq]
  exact whole

theorem settled_get (canonical : Value.CanonicalEntries s.root) (resolved : IsResolved path) :
    (s.get (Key.node path)).Settled := by
  obtain ⟨segs, names, rfl⟩ := resolved.exists_names
  rw [get_node names]
  exact settled_find canonical _ _

theorem remove_eq_set (s : Store) (key : String) : s.remove key = s.set key .null := rfl

/-- Where a value was written, that value stands. -/
theorem get_node_set (resolved : IsResolved path) (s : Store) (value : Value) :
    (s.set (Key.node path) value).get (Key.node path) = value.prune.settle := by
  obtain ⟨segs, names, rfl⟩ := resolved.exists_names
  have below : nodePlace segs ≠ [] := by simp [nodePlace]
  rw [set, get_node names, Key.components_node names, find_put_same below]

/-- After a removal there is no node within the removed path. -/
theorem get_node_remove_of_isWithin {other : String} (resolved : IsResolved path) (otherResolved : IsResolved other)
    (inside : Path.isWithin other path = true) (s : Store) : (s.remove (Key.node path)).get (Key.node other) = .null := by
  have written := get_node_set resolved s .null
  obtain ⟨segs, names, rfl⟩ := resolved.exists_names
  obtain ⟨others, otherNames, rfl⟩ := otherResolved.exists_names
  obtain ⟨rest, rfl⟩ := (Path.isWithin_ofSegments otherNames names).mp inside
  have valids (n : String) (member : n ∈ rest) : IsName n := otherNames n (List.mem_append_right _ member)
  rw [remove_eq_set, get_node_append names valids, written, Value.Settled.prune_eq (.inl rfl), Value.settle_null,
    Value.find_null, Value.settle_null]

/-- A write apart from a path leaves its node alone. -/
theorem get_node_set_apart {others : List String} (names : ∀ s ∈ segs, IsName s) (otherNames : ∀ s ∈ others, IsName s)
    (apart : Apart others segs) (s : Store) (value : Value) :
    (s.set (Key.node (ofSegments others)) value).get (Key.node (ofSegments segs)) = s.get (Key.node (ofSegments segs)) := by
  rw [get_node names, get_node names, set, Key.components_node otherNames,
    find_put_apart (Key.apart_nodePlace.mpr apart)]

/-- Whatever is written to passwords, an ordinary node stays. -/
theorem get_node_update_passwords (ordinary : IsOrdinary path) (pairs : List (String × Value)) (s : Store) :
    (s.update Key.passwords pairs).get (Key.node path) = s.get (Key.node path) := by
  obtain ⟨segs, names, notRoot, rfl⟩ := ordinary.exists_segments
  induction pairs generalizing s with
  | nil => rfl
  | cons p rest ih =>
    have apart := (Key.apart_passwordPlace names notRoot ordinary.2.2).append_left (Key.components p.1)
    have first : (s.put (Key.components Key.passwords ++ Key.components p.1) p.2).get (Key.node (ofSegments segs)) =
        s.get (Key.node (ofSegments segs)) := by
      rw [get_node names, get_node names, Key.components_passwords, find_put_apart apart]
    rw [update, List.foldl_cons, ← update, ih, first]

/-! ## Passwords -/

/-- The value of an entry of the mapping of all passwords. -/
def entry (s : Store) (name : String) : Value :=
  s.find (passwordPlace ++ [name])

theorem get_password (names : ∀ s ∈ segs, IsName s) (s : Store) :
    s.get (Key.password (ofSegments segs)) = s.entry (passwordEntry (ofSegments segs)) := by
  rw [get, Key.components_password names, entry]

theorem get_password_of_resolved (resolved : IsResolved path) (s : Store) :
    s.get (Key.password path) = s.entry (passwordEntry path) := by
  obtain ⟨segs, names, rfl⟩ := resolved.exists_names
  exact s.get_password names

/-- A write at an ordinary path changes no password. -/
theorem entry_set_node (ordinary : IsOrdinary path) (s : Store) (value : Value) :
    (s.set (Key.node path) value).entry name = s.entry name := by
  obtain ⟨segs, names, notRoot, rfl⟩ := ordinary.exists_segments
  have apart := (Key.apart_passwordPlace names notRoot ordinary.2.2).symm.append_right [name]
  rw [set, Key.components_node names, entry, find_put_apart apart, entry]

theorem entry_remove_node (ordinary : IsOrdinary path) (s : Store) :
    (s.remove (Key.node path)).entry name = s.entry name :=
  s.entry_set_node ordinary .null

/-- A child that is written into its parent is written at its path. -/
theorem update_parent (resolved : IsResolved path) (notRoot : path ≠ "/") (s : Store) (value : Value) :
    s.update (Key.node (Path.parent path)) [(CodeTable.segment.escape (Path.name path), value)] =
      s.set (Key.node path) value := by
  obtain ⟨front, last, frontNames, lastName, rfl⟩ := resolved.exists_names_concat notRoot
  rw [Path.parent_ofSegments front lastName, Path.name_ofSegments front lastName]
  simp only [update, List.foldl_cons, List.foldl_nil, set]
  rw [Key.components_node frontNames, Key.components_escape lastName, ← Key.nodePlace_concat,
    Key.components_node (Path.names_concat frontNames lastName)]

theorem entry_set_cwd (identity : String) (s : Store) (value : Value) :
    (s.set (Key.cwd identity) value).entry name = s.entry name := by
  have apart := (Key.apart_cwd_passwordPlace identity).symm.append_right [name]
  rw [set, entry, find_put_apart apart, entry]

theorem get_node_set_cwd (resolved : IsResolved path) (identity : String) (s : Store) (value : Value) :
    (s.set (Key.cwd identity) value).get (Key.node path) = s.get (Key.node path) := by
  obtain ⟨segs, names, rfl⟩ := resolved.exists_names
  rw [set, get_node names, get_node names, find_put_apart (Key.apart_cwd_nodePlace identity segs)]

/-- A write at an entry changes that entry only. -/
theorem entry_put (written : String) (s : Store) (value : Value) :
    (s.put (passwordPlace ++ [written]) value).entry name =
      if name = written then value.prune.settle else s.entry name := by
  rw [entry]
  split
  · next same =>
    have below : passwordPlace ++ [written] ≠ [] := by simp
    rw [same, find_put_same below]
  · next differs =>
    have apart : Apart (passwordPlace ++ [written]) (passwordPlace ++ [name]) := apart_concat (Ne.symm differs)
    rw [find_put_apart apart, entry]

/-- A new password of a path changes its entry only. -/
theorem entry_set_password (resolved : IsResolved path) (s : Store) (password : String) :
    (s.set (Key.password path) (.text password)).entry name =
      if name = passwordEntry path then .text password else s.entry name := by
  obtain ⟨segs, names, rfl⟩ := resolved.exists_names
  rw [set, Key.components_password names, entry_put]
  rfl

/-- Dropping entries empties just these. -/
theorem entry_update_passwords (pairs : List (String × Value))
    (drops : ∀ p ∈ pairs, IsName p.1 ∧ p.2 = .null) (s : Store) :
    (s.update Key.passwords pairs).entry name = if name ∈ Assoc.names pairs then .null else s.entry name := by
  induction pairs generalizing s with
  | nil => simp [update, Assoc.names]
  | cons p rest ih =>
    obtain ⟨valid, vanishes⟩ := drops p (List.mem_cons_self ..)
    have unfolded : s.update Key.passwords (p :: rest) =
        (s.put (passwordPlace ++ [p.1]) .null).update Key.passwords rest := by
      rw [update, List.foldl_cons, Key.components_passwords, Key.components_eq_singleton valid, vanishes, update,
        Key.components_passwords]
    rw [unfolded, ih (fun q member => drops q (List.mem_cons_of_mem _ member)), entry_put]
    have member : name ∈ Assoc.names (p :: rest) ↔ name = p.1 ∨ name ∈ Assoc.names rest := by
      rw [Assoc.names, List.map_cons, List.mem_cons, ← Assoc.names]
    by_cases here : name = p.1
    · rw [if_pos here, if_pos (member.mpr (.inl here))]
      split <;> rfl
    · rw [if_neg here]
      simp only [member, here, false_or]

/-- The entries that drop passwords are those of the paths, each with nothing for a value. -/
theorem mem_removals {paths : List String} {p : String × Value} (member : p ∈ Vault.removals paths) :
    ∃ path ∈ paths, p = (passwordEntry path, .null) := by
  obtain ⟨path, listed, same⟩ := List.mem_map.mp (Assoc.mem_ofPairs member)
  exact ⟨path, listed, same.symm⟩

theorem mem_names_removals {paths : List String} :
    name ∈ Assoc.names (Vault.removals paths) ↔ ∃ path ∈ paths, passwordEntry path = name := by
  rw [Vault.removals, Assoc.mem_names_ofPairs]
  simp [Assoc.names]

/-- What survives each drop of a password survives dropping the passwords of paths. -/
theorem removals_induction {P : Store → Prop} {paths : List String}
    (drops : ∀ path ∈ paths, ∀ s, P s → P (s.put (passwordPlace ++ Key.components (passwordEntry path)) .null))
    (holds : P s) :
    P (s.update Key.passwords (Vault.removals paths)) := by
  have dropped : ∀ p ∈ Vault.removals paths, ∃ path ∈ paths, p = (passwordEntry path, .null) := fun _ => mem_removals
  generalize Vault.removals paths = pairs at dropped
  induction pairs generalizing s with
  | nil => exact holds
  | cons p rest ih =>
    obtain ⟨path, listed, rfl⟩ := dropped p (List.mem_cons_self ..)
    refine ih (s := s.put _ _) ?_ fun q member => dropped q (List.mem_cons_of_mem _ member)
    rw [Key.components_passwords]
    exact drops path listed s holds

/-- Dropping the passwords of paths empties just their entries. -/
theorem entry_removals (paths : List String)
    (valid : ∀ path ∈ paths, ∃ segs, (∀ s ∈ segs, IsName s) ∧ path = ofSegments segs) (s : Store) (name : String) :
    (s.update Key.passwords (Vault.removals paths)).entry name =
      if ∃ path ∈ paths, passwordEntry path = name then .null else s.entry name := by
  have drops : ∀ p ∈ Vault.removals paths, IsName p.1 ∧ p.2 = .null := by
    intro p member
    obtain ⟨path, inside, rfl⟩ := mem_removals member
    obtain ⟨segs, names, rfl⟩ := valid path inside
    exact ⟨Key.isName_passwordEntry names, rfl⟩
  rw [entry_update_passwords _ drops]
  simp only [mem_names_removals]

end Store

end TreeShell
