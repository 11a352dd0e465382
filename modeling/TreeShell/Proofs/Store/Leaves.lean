import TreeShell.Proofs.Node.Walk
import TreeShell.Proofs.Store.Frame
import TreeShell.Proofs.Store.Refinement
import TreeShell.Proofs.Verb.Outcome

/-! # Leaves that a write can reach

A write changes the leaves at and below its place and, if it brings something, a leaf above: the place
must be open, with no scalar on the way to it, for the write to displace nothing else. Where something
stands, or right below a directory, a place is open. At a path whose nearest ancestor that exists is not a
file so is the place of its node, which is what the check for a file above a path is for
(`open_of_fileNearest`).
-/

namespace TreeShell

namespace Store

open Key (nodePlace passwordPlace)
open Path (IsName IsResolved ofSegments)

variable {s t : Store} {place written other : List String} {segs : List String} {path : String}

/-- The scalar at a place of a store. -/
def leafAt (s : Store) (place : List String) : Option Value :=
  (Value.mapping s.root).leafAt place

theorem leafAt_eq (s : Store) (place : List String) : s.leafAt place = (s.find place).leaf? := by
  rw [find_eq_settle, Value.leaf?_settle]
  rfl

/-- The leaves at and below a place are those of the value there. -/
theorem leafAt_append (s : Store) (place rest : List String) : s.leafAt (place ++ rest) = (s.find place).leafAt rest := by
  rw [leafAt_eq, find_append, Value.leaf?_settle]
  rfl

/-- A write seen at the leaves of a store. -/
theorem leafAt_put (notRoot : written ≠ []) (s : Store) (value : Value) (place : List String) :
    (s.put written value).leafAt place =
      if written <+: place then value.prune.leafAt (place.drop written.length)
      else if place <+: written ∧ value.prune ≠ .null then none
      else s.leafAt place :=
  Entries.leafAt_put notRoot (Value.settled_prune value) s.root place

/-- A deletion reaches no leaf but those at and below its place. -/
theorem leafAt_put_null (notRoot : written ≠ []) (outside : ¬ written <+: place) (s : Store) :
    (s.put written .null).leafAt place = s.leafAt place := by
  rw [leafAt_put notRoot, if_neg outside, if_neg]
  exact fun both => both.2 rfl

/-- A write leaves two stores with the same leaf at a place, if they had. -/
theorem leafAt_put_congr (same : s.leafAt place = t.leafAt place) (written : List String) (value : Value) :
    (s.put written value).leafAt place = (t.put written value).leafAt place := by
  by_cases atRoot : written = []
  · rw [atRoot]
    rfl
  · rw [leafAt_put atRoot, leafAt_put atRoot, same]

theorem leafAt_perform_congr (same : s.leafAt place = t.leafAt place) (call : StoreCall) :
    (s.perform call).2.leafAt place = (t.perform call).2.leafAt place := by
  cases call with
  | get key => exact same
  | set key value => exact leafAt_put_congr same _ _
  | remove key => exact leafAt_put_congr same _ _
  | update key pairs =>
    change (s.update key pairs).leafAt place = (t.update key pairs).leafAt place
    induction pairs generalizing s t with
    | nil => exact same
    | cons p rest ih => exact ih (leafAt_put_congr same _ _)

/-- So does every sequence of calls. -/
theorem leafAt_after_congr (same : s.leafAt place = t.leafAt place) (calls : List StoreCall) :
    (s.after calls).leafAt place = (t.after calls).leafAt place := by
  induction calls generalizing s t with
  | nil => exact same
  | cons call rest ih => exact ih (leafAt_perform_congr same call)

/-! ## Open places -/

/-- Whether no scalar stands above a place. -/
def Open (s : Store) (place : List String) : Prop :=
  ∀ above, above <+: place → above ≠ place → s.leafAt above = none

/-- A write at an open place reaches no leaf but those at and below it. -/
theorem Open.leafAt_put (isOpen : s.Open written) (notRoot : written ≠ []) (outside : ¬ written <+: place)
    (value : Value) : (s.put written value).leafAt place = s.leafAt place := by
  rw [Store.leafAt_put notRoot, if_neg outside]
  split
  · next both =>
    refine (isOpen place both.1 ?_).symm
    rintro rfl
    exact outside List.prefix_rfl
  · rfl

/-- A place stays open under writes that are not above it. -/
theorem Open.put (isOpen : s.Open place) (notRoot : written ≠ []) (notAbove : written <+: place → written = place)
    (value : Value) : (s.put written value).Open place := by
  intro above isAbove strict
  have outside : ¬ written <+: above := by
    intro under
    rw [notAbove (under.trans isAbove)] at under
    exact strict (isAbove.eq_of_length (Nat.le_antisymm isAbove.length_le under.length_le))
  rw [Store.leafAt_put notRoot, if_neg outside, isOpen above isAbove strict, ite_self]

/-- Where something stands, nothing is a scalar on the way there. -/
theorem open_of_find (there : s.find place ≠ .null) : s.Open place := by
  rintro above ⟨rest, rfl⟩ strict
  cases rest with
  | nil => exact absurd (List.append_nil above).symm strict
  | cons name rest =>
    cases leaf : s.leafAt above with
    | none => rfl
    | some c =>
      rw [leafAt, Value.leafAt] at leaf
      have scalar := (Value.leaf?_eq_some_iff.mp leaf).2.2
      rw [find_eq_settle, Value.find_append, Value.find_cons_of_not_mapping scalar] at there
      exact absurd rfl there

theorem open_concat {name : String} (isOpen : s.Open place) (bare : s.leafAt place = none) : s.Open (place ++ [name]) := by
  intro above isAbove strict
  rcases List.prefix_concat_iff.mp isAbove with same | inside
  · exact absurd same strict
  · by_cases here : above = place
    · rw [here, bare]
    · exact isOpen above inside here

theorem open_tree (s : Store) : s.Open (nodePlace []) := by
  have top : s.Open [] := fun above isAbove strict => absurd (List.prefix_nil.mp isAbove) strict
  exact open_concat top rfl

theorem leafAt_of_not_scalar (shape : s.find place = .null ∨ (s.find place).isMapping = true) :
    s.leafAt place = none := by
  rw [leafAt_eq]
  rcases shape with gone | mapping
  · rw [gone]
    rfl
  · obtain ⟨entries, found⟩ := (s.find place).mapping_or_scalar.resolve_right (by simp [mapping])
    rw [found]
    rfl

/-- Whether the file tree and the mapping of all passwords are what their names say: absent, or mappings. -/
def Shaped (s : Store) : Prop :=
  ∀ key ∈ [Key.node "/", Key.passwords], s.get key = .null ∨ (s.get key).isMapping = true

instance (s : Store) : Decidable s.Shaped :=
  inferInstanceAs (Decidable (∀ key ∈ _, _))

namespace Shaped

theorem leafAt_tree (shaped : s.Shaped) : s.leafAt (nodePlace []) = none :=
  leafAt_of_not_scalar (shaped (Key.node "/") (by simp))

theorem leafAt_passwords (shaped : s.Shaped) : s.leafAt passwordPlace = none := by
  have shape := shaped Key.passwords (by simp)
  rw [get, Key.components_passwords] at shape
  exact leafAt_of_not_scalar shape

/-- No scalar stands above an entry of the mapping of all passwords. -/
theorem open_entry (shaped : s.Shaped) (name : String) : s.Open (passwordPlace ++ [name]) :=
  open_concat (open_concat (open_tree s) shaped.leafAt_tree) shaped.leafAt_passwords

/-- No scalar stands above the password of a path. -/
theorem open_password (shaped : s.Shaped) (resolved : IsResolved path) : s.Open (Key.components (Key.password path)) := by
  rw [Key.components_password_of_resolved resolved]
  exact shaped.open_entry _

end Shaped

/-! ## The places of nodes -/

theorem node?_ofSegments (names : ∀ s ∈ segs, IsName s) (notRoot : segs ≠ []) (s : Store) :
    s.node? (ofSegments segs) = Node.ofValue? (s.find (nodePlace segs)) := by
  rw [node?, Verb.loaded_of_ne_root (mt (Path.ofSegments_eq_root_iff names).mp notRoot), get_node names]

theorem find_node_of_directory (names : ∀ s ∈ segs, IsName s) (notRoot : segs ≠ []) {children : Entries}
    (found : s.node? (ofSegments segs) = some (.directory children)) :
    (s.find (nodePlace segs)).isMapping = true := by
  rw [node?_ofSegments names notRoot] at found
  generalize s.find (nodePlace segs) = v at found
  rcases v.mapping_or_scalar with ⟨entries, rfl⟩ | scalar
  · rfl
  · obtain ⟨content, same⟩ := Node.eq_file_of_scalar scalar found
    exact absurd same nofun

/-- Right below a directory a place is open. -/
theorem open_of_parent (shaped : s.Shaped) (names : ∀ s ∈ segs, IsName s) {children : Entries}
    (found : s.node? (ofSegments segs) = some (.directory children)) (name : String) :
    s.Open (nodePlace segs ++ [name]) := by
  by_cases atRoot : segs = []
  · subst atRoot
    exact open_concat (open_tree s) shaped.leafAt_tree
  · have mapping := find_node_of_directory names atRoot found
    refine open_concat (open_of_find fun gone => ?_) (leafAt_of_not_scalar (.inr mapping))
    rw [gone] at mapping
    exact absurd mapping nofun

/-- If the nearest ancestor of a path that exists is no file, the place of its node is open. -/
theorem open_of_fileNearest (shaped : s.Shaped) (names : ∀ s ∈ segs, IsName s)
    (free : s.fileNearest (Path.ancestors (ofSegments segs)) = false) : s.Open (nodePlace segs) := by
  induction segs using List.reverseRecOn with
  | nil => exact open_tree s
  | append_singleton front n ih =>
    have frontNames (m : String) (member : m ∈ front) : IsName m := names m (List.mem_append_left _ member)
    have valid : IsName n := names n (by simp)
    rw [Path.ancestors_concat frontNames valid] at free
    rw [Key.nodePlace_concat]
    by_cases atRoot : front = []
    · subst atRoot
      exact open_concat (open_tree s) shaped.leafAt_tree
    · rw [if_neg atRoot, fileNearest] at free
      cases found : s.node? (ofSegments front) with
      | none =>
        rw [found] at free
        rw [node?_ofSegments frontNames atRoot] at found
        refine open_concat (ih frontNames free) (leafAt_of_not_scalar (.inl ?_))
        cases here : s.find (nodePlace front) with
        | null => rfl
        | bool b => cases b <;> simp [here, Node.ofValue?] at found
        | _ => simp [here, Node.ofValue?] at found
      | some node =>
        cases node with
        | file content => simp [found] at free
        | directory children => exact open_of_parent shaped frontNames found _

theorem components_node_ne_nil (resolved : IsResolved path) : Key.components (Key.node path) ≠ [] := by
  obtain ⟨segs, names, rfl⟩ := resolved.exists_names
  simp [Key.components_node names, nodePlace]

theorem components_password_ne_nil (resolved : IsResolved path) : Key.components (Key.password path) ≠ [] := by
  obtain ⟨segs, names, rfl⟩ := resolved.exists_names
  simp [Key.components_password names]

/-- A path whose node may be made, since no ancestor is a file, is an open place. -/
theorem open_node_of_free (shaped : s.Shaped) (resolved : IsResolved path)
    (free : s.fileNearest (Path.ancestors path) = false) : s.Open (Key.components (Key.node path)) := by
  obtain ⟨segs, names, rfl⟩ := resolved.exists_names
  rw [Key.components_node names]
  exact open_of_fileNearest shaped names free

/-- A path with a directory for a parent is an open place. -/
theorem open_node_of_parent (shaped : s.Shaped) (resolved : IsResolved path) (notRoot : path ≠ "/") {children : Entries}
    (found : s.node? (Path.parent path) = some (.directory children)) : s.Open (Key.components (Key.node path)) := by
  obtain ⟨front, last, frontNames, lastName, rfl⟩ := resolved.exists_names_concat notRoot
  rw [Path.parent_ofSegments front lastName] at found
  rw [Key.components_node (Path.names_concat frontNames lastName), Key.nodePlace_concat]
  exact open_of_parent shaped frontNames found _

/-- A path that has a node is an open place. -/
theorem open_node_of_present (there : s.get (Key.node path) ≠ .null) : s.Open (Key.components (Key.node path)) :=
  open_of_find there

/-- Above an open place there is no file. -/
theorem Open.not_file (isOpen : s.Open (Key.components (Key.node path))) (resolved : IsResolved path)
    {ancestor : String} (ancestorResolved : IsResolved ancestor) (within : Path.isWithin path ancestor = true)
    (proper : ancestor ≠ path) (content : String) : s.node? ancestor ≠ some (.file content) := by
  intro file
  have notRoot : ancestor ≠ "/" := by
    rintro rfl
    obtain ⟨children, found⟩ := Verb.loaded_root (s.get (Key.node "/"))
    rw [node?, found] at file
    cases file
  obtain ⟨segs, names, rfl⟩ := resolved.exists_names
  obtain ⟨others, otherNames, rfl⟩ := ancestorResolved.exists_names
  rw [Key.components_node names] at isOpen
  rw [Path.isWithin_ofSegments names otherNames] at within
  have bare : s.leafAt (nodePlace others) = none := by
    refine isOpen _ (Key.nodePlace_prefix_iff.mpr within) fun same => proper ?_
    rw [Key.nodePlace_inj.mp same]
  rw [node?_ofSegments otherNames (mt (Path.ofSegments_eq_root_iff otherNames).mpr notRoot)] at file
  rw [leafAt_eq] at bare
  generalize s.find (nodePlace others) = v at bare file
  cases v with
  | null => cases file
  | mapping entries => cases file
  | _ => simp [Value.leaf?] at bare

/-! ## Dropped passwords -/

/-- Dropping the passwords of paths reaches no leaf but those at and below them. -/
theorem leafAt_removals (paths : List String) (s : Store)
    (outside : ∀ path ∈ paths, ¬ Key.components (Key.password path) <+: place) :
    (s.update Key.passwords (Vault.removals paths)).leafAt place = s.leafAt place := by
  refine removals_induction (P := fun t => t.leafAt place = s.leafAt place) (fun path listed t same => ?_) rfl
  have away := outside path listed
  rw [Key.password, Key.components_append, Key.components_passwords] at away
  have notRoot : passwordPlace ++ Key.components (Key.passwordEntry path) ≠ [] := by simp [passwordPlace]
  rw [leafAt_put_null notRoot away, same]

end Store

end TreeShell
