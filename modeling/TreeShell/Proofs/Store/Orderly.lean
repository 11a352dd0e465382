import TreeShell.Proofs.Node.Below
import TreeShell.Proofs.Store.Presence
import TreeShell.Proofs.Store.SoundWrites
import TreeShell.Proofs.Verb.Upkeep

/-! # Where the leaves of the file tree stand

Without elevation a leaf comes into the file tree at the place of a path that `resolve` leaves alone, or as a
password in an entry of its own. A store that has no other leaves there is orderly, and the verbs keep it so, also
when others work on it at the same time (`orderly_upkeep`). All keys of an orderly file tree are escaped names
(`Orderly.exists_name`), so decoding a directory loses nothing (`Orderly.childrenOf_eq`), and a child is what stands
at the path with its name (`Orderly.node?_join`).
-/

namespace TreeShell

open Key (IsOrdinary nodePlace passwordDirectory passwordPlace treeRoot)
open Path (IsName IsProper IsResolved isResolved_iff ofSegments)
open Verb

/-- Whether a leaf of the file tree stands at the place of a path outside the metadata, or is a password. -/
inductive Seated : List String → Value → Prop
  | node {segs : List String} {leaf : Value} (filled : segs ≠ []) (proper : ∀ n ∈ segs, IsProper n)
    (outside : segs.head? ≠ some passwordDirectory) : Seated (segs.map CodeTable.segment.escape) leaf
  | password {name : String} (text : String) (filled : name ≠ "") :
    Seated [passwordDirectory, CodeTable.segment.escape name] (.text text)

/-- Whether a value can be put at any path: it is tidy, and the names above its leaves are proper. -/
structure Value.Portable (v : Value) : Prop where
  tidy : v.Tidy
  proper : ∀ place, (v.leafAt place).isSome →
    ∃ segs : List String, (∀ n ∈ segs, IsProper n) ∧ place = segs.map CodeTable.segment.escape

/-- Whether a store is sound, and has every leaf of its file tree where leaves belong. -/
structure Store.Orderly (s : Store) : Prop where
  sound : s.Sound
  seated : ∀ place leaf, s.leafAt (treeRoot :: place) = some leaf → Seated place leaf

variable {s : Store} {path name : String} {place written segs : List String} {value leaf : Value}

/-- Every key above a leaf is an escaped name. -/
theorem Seated.exists_name (seated : Seated place leaf) {key : String} (member : key ∈ place) :
    ∃ name, name ≠ "" ∧ key = CodeTable.segment.escape name := by
  cases seated with
  | node filled proper outside =>
    obtain ⟨n, inside, rfl⟩ := List.mem_map.mp member
    exact ⟨n, (proper n inside).1.1, rfl⟩
  | password text filled =>
    rcases List.mem_cons.mp member with rfl | last
    · exact ⟨passwordDirectory, by decide, by decide⟩
    · exact ⟨_, filled, List.mem_singleton.mp last⟩

/-- Below an ordinary path a leaf has proper names above it. -/
theorem Seated.of_ordinary (seated : Seated (segs.map CodeTable.segment.escape ++ place) leaf) (filled : segs ≠ [])
    (outside : segs.head? ≠ some passwordDirectory) :
    ∃ rest : List String, (∀ n ∈ rest, IsProper n) ∧ place = rest.map CodeTable.segment.escape := by
  generalize whole : segs.map CodeTable.segment.escape ++ place = above at seated
  cases seated with
  | @node names leaf _ proper _ =>
    refine ⟨names.drop segs.length, fun n member => proper n (List.mem_of_mem_drop member), ?_⟩
    rw [List.map_drop, ← whole, ← List.length_map (f := CodeTable.segment.escape), List.drop_left]
  | password text _ =>
    obtain ⟨first, rest, rfl⟩ := List.exists_cons_of_ne_nil filled
    have own : CodeTable.segment.escape passwordDirectory = passwordDirectory := by decide
    have same := (List.cons.inj whole).1.trans own.symm
    exact absurd (congrArg some (Key.escape_injective same)) outside

/-- The segments of an ordinary path. -/
theorem Key.IsOrdinary.exists_proper (ordinary : IsOrdinary path) : ∃ segs, segs ≠ [] ∧ (∀ n ∈ segs, IsProper n) ∧
    segs.head? ≠ some passwordDirectory ∧ path = ofSegments segs := by
  obtain ⟨resolved, notRoot, outside⟩ := ordinary
  obtain ⟨segs, proper, rfl⟩ := isResolved_iff.mp resolved
  have names (n : String) (member : n ∈ segs) : IsName n := (proper n member).1
  refine ⟨segs, mt (Path.ofSegments_eq_root_iff names).mpr notRoot, proper, ?_, rfl⟩
  intro metadata
  obtain ⟨rest, rfl⟩ := List.head?_eq_some_iff.mp metadata
  have inside : Key.isMetadata (ofSegments (passwordDirectory :: rest)) = true :=
    (Key.isMetadata_ofSegments names).mpr (List.prefix_append [_] rest)
  exact absurd (inside.symm.trans outside) nofun

namespace Value

theorem portable_null : Portable .null :=
  ⟨Store.tidy_null, fun place held => by simp at held⟩

theorem portable_text (text : String) : Portable (.text text) := by
  refine ⟨Store.tidy_text text, fun place held => ?_⟩
  cases place with
  | nil => exact ⟨[], List.forall_mem_nil _, rfl⟩
  | cons name rest => exact absurd held nofun

theorem portable_newDirectory : Portable newDirectory := by
  refine ⟨Store.tidy_newDirectory, fun place held => ?_⟩
  refine ⟨[placeholderName], by decide, ?_⟩
  rcases place with _ | ⟨name, _ | ⟨next, rest⟩⟩
  · exact absurd held nofun
  · rw [leafAt, newDirectory, find_mapping_cons, Assoc.get?_cons] at held
    split at held
    · next same => rw [same]; rfl
    · cases held
  · rw [leafAt, newDirectory, find_mapping_cons, Assoc.get?_cons] at held
    split at held <;> cases held

end Value

namespace Store

/-- A write leaves every leaf where leaves belong if its own leaves go there. -/
theorem seated_put (notRoot : written ≠ []) (seated : ∀ place leaf, s.leafAt (treeRoot :: place) = some leaf → Seated place leaf)
    (arrives : ∀ place rest leaf, treeRoot :: place = written ++ rest → value.prune.leafAt rest = some leaf →
      Seated place leaf) :
    ∀ place leaf, (s.put written value).leafAt (treeRoot :: place) = some leaf → Seated place leaf := by
  intro place leaf found
  rw [leafAt_put notRoot] at found
  split at found
  · next inside =>
    obtain ⟨rest, same⟩ := inside
    rw [← same, List.drop_left] at found
    exact arrives place rest leaf same.symm found
  · split at found
    · cases found
    · exact seated place leaf found

namespace Orderly

/-- What stands at an ordinary path can be put elsewhere. -/
theorem portable (orderly : s.Orderly) (ordinary : IsOrdinary path) : (s.get (Key.node path)).Portable := by
  refine ⟨orderly.sound.tidy ordinary, fun place held => ?_⟩
  obtain ⟨segs, filled, proper, outside, rfl⟩ := ordinary.exists_proper
  obtain ⟨leaf, found⟩ := Option.isSome_iff_exists.mp held
  have stands : s.leafAt (nodePlace segs ++ place) = some leaf := by
    rw [leafAt_eq, find_append, ← get_node fun n member => (proper n member).1, Value.leaf?_settle]
    exact found
  exact (orderly.seated _ leaf stands).of_ordinary filled outside

theorem set_node (orderly : s.Orderly) (ordinary : IsOrdinary path) (portable : value.Portable) :
    (s.set (Key.node path) value).Orderly := by
  refine ⟨orderly.sound.set_node ordinary portable.tidy, ?_⟩
  have notRoot := components_node_ne_nil ordinary.1
  obtain ⟨segs, filled, proper, outside, rfl⟩ := ordinary.exists_proper
  refine seated_put notRoot orderly.seated fun place rest leaf same arrives => ?_
  rw [portable.tidy.settled.prune_eq] at arrives
  obtain ⟨further, properRest, rfl⟩ := portable.proper rest (by rw [arrives]; rfl)
  rw [Key.components_node fun n member => (proper n member).1, nodePlace, List.cons_append, List.cons.injEq,
    ← List.map_append] at same
  rw [same.2]
  refine .node (List.append_ne_nil_of_left_ne_nil filled _) (fun n member => ?_) ?_
  · exact (List.mem_append.mp member).elim (proper n) (properRest n)
  · rwa [List.head?_append_of_ne_nil _ filled]

theorem remove_node (orderly : s.Orderly) (ordinary : IsOrdinary path) : (s.remove (Key.node path)).Orderly :=
  orderly.set_node ordinary Value.portable_null

theorem set_password (orderly : s.Orderly) (ordinary : IsOrdinary path) (password : String) :
    (s.set (Key.password path) (.text password)).Orderly := by
  refine ⟨orderly.sound.set_password ordinary.1 password, ?_⟩
  have notRoot := components_password_ne_nil ordinary.1
  obtain ⟨segs, names, filled, rfl⟩ := ordinary.exists_segments
  refine seated_put notRoot orderly.seated fun place rest leaf same arrives => ?_
  rw [Key.components_password names, Key.passwordEntry_ofSegments names filled] at same
  cases rest with
  | nil =>
    obtain rfl : Value.text password = leaf := Option.some.inj arrives
    obtain rfl := (List.cons.inj same).2
    refine .password password fun blank => ?_
    refine filled ((Path.ofSegments_eq_root_iff names).mp ?_)
    rw [ofSegments, blank]
    decide
  | cons name rest => cases arrives

theorem removals (orderly : s.Orderly) (paths : List String) :
    (s.update Key.passwords (Vault.removals paths)).Orderly := by
  refine ⟨orderly.sound.removals paths, ?_⟩
  refine removals_induction (P := fun s => ∀ place leaf, s.leafAt (treeRoot :: place) = some leaf → Seated place leaf)
    (fun path _ s seated => ?_) orderly.seated
  refine seated_put (by simp [Key.passwordPlace]) seated fun place rest leaf same arrives => ?_
  cases (Value.leafAt_null rest).symm.trans arrives

theorem set_cwd (orderly : s.Orderly) (identity cwd : String) : (s.set (Key.cwd identity) (.text cwd)).Orderly := by
  refine ⟨orderly.sound.set_cwd identity cwd, ?_⟩
  rw [set, Key.components_cwd]
  refine seated_put (by simp) orderly.seated fun place rest leaf same _ => ?_
  exact absurd (List.cons.inj same).1 (by decide)

end Orderly

/-- The children of a directory are the decoded entries of the mapping at its path. -/
theorem directory_eq {children : Entries} (found : s.node? path = some (.directory children)) :
    children = Node.childrenOf (Entries.ofValue (s.get (Key.node path))) := by
  rw [node?, loaded] at found
  generalize s.get (Key.node path) = v at found
  cases v with
  | mapping entries => exact (Node.directory.inj (Option.some.inj found)).symm
  | bool b => cases b <;> (dsimp only [Node.ofValue?] at found; split at found <;> cases found; rfl)
  | _ => dsimp only [Node.ofValue?] at found; split at found <;> cases found; rfl

theorem orderly_empty : empty.Orderly :=
  ⟨sound_empty, nofun⟩

/-- The verbs keep a store orderly. -/
theorem orderly_upkeep (identity : String) : Upkeep (fun _ : Unit => Orderly) Value.Portable identity false where
  read orderly writable := orderly.portable writable.ordinary
  text := Value.portable_text
  fresh := Value.portable_newDirectory
  write orderly writable portable := orderly.set_node writable.ordinary portable
  remove orderly writable := orderly.remove_node writable.ordinary
  forget orderly paths := orderly.removals paths
  protect orderly ordinary password := orderly.set_password ordinary password
  remember orderly path := orderly.set_cwd identity path

/-! ## What an orderly file tree holds -/

namespace Orderly

/-- Where the file tree is, it is a mapping. -/
theorem tree (orderly : s.Orderly) : s.find [treeRoot] = .null ∨ (s.find [treeRoot]).isMapping = true := by
  by_contra scalar
  rw [not_or, Bool.not_eq_true] at scalar
  have leaf : s.leafAt [treeRoot] = some (s.find [treeRoot]) := by
    rw [leafAt_eq, Value.leaf?_eq_some_iff]
    exact ⟨rfl, scalar⟩
  generalize s.find [treeRoot] = v at leaf
  have seated := orderly.seated [] v leaf
  generalize none : ([] : List String) = place at seated
  cases seated with
  | node filled => exact filled (List.map_eq_nil_iff.mp none.symm)
  | password => cases none

/-- The entries of the mapping at a place of the file tree. -/
theorem distinct_entries (orderly : s.Orderly) (place : List String) :
    (Assoc.names (Entries.ofValue (s.find place))).Nodup := by
  have distinct := (orderly.sound.distinct.find place).settle
  rw [← find_eq_settle] at distinct
  generalize s.find place = v at distinct
  cases v with
  | mapping entries => exact distinct.1
  | _ => exact .nil

theorem canonical_entries (orderly : s.Orderly) (place : List String) :
    ∀ e ∈ Entries.ofValue (s.find (treeRoot :: place)), e.2.Canonical := by
  have settled := settled_find orderly.sound.canonical treeRoot place
  generalize s.find (treeRoot :: place) = v at settled
  cases v with
  | mapping entries => exact Value.canonicalEntries_iff.mp (settled.resolve_left nofun).2
  | _ => exact nofun

/-- Below every entry of the file tree there is a leaf. -/
theorem exists_leaf (orderly : s.Orderly) {key : String}
    (member : key ∈ Assoc.names (Entries.ofValue (s.find (treeRoot :: place)))) :
    ∃ rest leaf, Seated (place ++ key :: rest) leaf := by
  obtain ⟨⟨key, v⟩, inside, rfl⟩ := List.mem_map.mp member
  obtain ⟨rest, held⟩ := v.exists_leafAt (orderly.canonical_entries place _ inside)
  obtain ⟨leaf, stands⟩ := Option.isSome_iff_exists.mp held
  refine ⟨rest, leaf, orderly.seated _ leaf ?_⟩
  have looked : Assoc.get? (Entries.ofValue (s.find (treeRoot :: place))) key = some v :=
    (Assoc.get?_eq_some_iff (orderly.distinct_entries _)).mpr inside
  rw [← List.cons_append, leafAt_eq, find_append, Value.leaf?_settle, ← Entries.find_ofValue, Value.find_mapping_cons,
    looked]
  exact stands

/-- Every key of the file tree is an escaped name. -/
theorem exists_name (orderly : s.Orderly) {key : String}
    (member : key ∈ Assoc.names (Entries.ofValue (s.find (treeRoot :: place)))) :
    ∃ name, name ≠ "" ∧ key = CodeTable.segment.escape name := by
  obtain ⟨rest, leaf, seated⟩ := orderly.exists_leaf member
  exact seated.exists_name (by simp)

theorem escape_unescape (orderly : s.Orderly) :
    ∀ e ∈ Entries.ofValue (s.find (treeRoot :: place)), CodeTable.segment.escape (CodeTable.segment.unescape e.1) = e.1 := by
  intro e member
  obtain ⟨name, -, same⟩ := orderly.exists_name (Assoc.mem_names_of_mem member)
  rw [same, CodeTable.unescape_escape CodeTable.lawful_segment]

/-- Decoding a mapping of the file tree merges no children. -/
theorem childrenOf_eq (orderly : s.Orderly) (place : List String) :
    Node.childrenOf (Entries.ofValue (s.find (treeRoot :: place))) =
      (Entries.ofValue (s.find (treeRoot :: place))).map fun e => (CodeTable.segment.unescape e.1, e.2) :=
  Node.childrenOf_eq orderly.escape_unescape (orderly.distinct_entries _)

/-- A child has the value of the entry that its name escapes to. -/
theorem get?_childrenOf (orderly : s.Orderly) (place : List String) (name : String) :
    Assoc.get? (Node.childrenOf (Entries.ofValue (s.find (treeRoot :: place)))) name =
      Assoc.get? (Entries.ofValue (s.find (treeRoot :: place))) (CodeTable.segment.escape name) := by
  have distinct := orderly.distinct_entries (treeRoot :: place)
  ext v
  have decoded : (Assoc.names (Node.childrenOf (Entries.ofValue (s.find (treeRoot :: place))))).Nodup :=
    Assoc.nodup_ofPairs _
  rw [Assoc.get?_eq_some_iff decoded, Assoc.get?_eq_some_iff distinct, orderly.childrenOf_eq, List.mem_map]
  constructor
  · rintro ⟨e, member, same⟩
    cases same
    rw [orderly.escape_unescape e member]
    exact member
  · intro member
    refine ⟨_, member, ?_⟩
    rw [CodeTable.unescape_escape CodeTable.lawful_segment]

variable {children : Entries}

/-- Below a path stands what the mapping there has under the escaped name. -/
theorem get_node_join (orderly : s.Orderly) (resolved : IsResolved path) (valid : IsName name) :
    s.get (Key.node (Path.join path name)) =
      (Assoc.get? (Entries.ofValue (s.get (Key.node path))) (CodeTable.segment.escape name)).getD .null := by
  obtain ⟨segs, names, rfl⟩ := resolved.exists_names
  have settled := (settled_get orderly.sound.canonical resolved).find [CodeTable.segment.escape name]
  rw [Path.join_ofSegments names, get_node_append names (by simpa using valid), List.map_singleton, settled.settle_eq,
    ← Entries.find_ofValue, Value.find_mapping_cons, Value.find_nil]

theorem get?_children (orderly : s.Orderly) (resolved : IsResolved path)
    (found : s.node? path = some (.directory children)) (name : String) :
    Assoc.get? children name =
      Assoc.get? (Entries.ofValue (s.get (Key.node path))) (CodeTable.segment.escape name) := by
  obtain ⟨segs, names, rfl⟩ := resolved.exists_names
  rw [directory_eq found, get_node names]
  exact orderly.get?_childrenOf _ name

/-- What stands under the name of a child of a directory is that child. -/
theorem node?_join (orderly : s.Orderly) (resolved : IsResolved path) (valid : IsName name)
    (found : s.node? path = some (.directory children)) :
    s.node? (Path.join path name) = (Node.directory children).child? name := by
  have notRoot : Path.join path name ≠ "/" := by
    obtain ⟨segs, names, rfl⟩ := resolved.exists_names
    rw [Path.join_ofSegments names, ne_eq, Path.ofSegments_eq_root_iff (Path.names_concat names valid)]
    simp
  rw [node?, loaded_of_ne_root notRoot, orderly.get_node_join resolved valid, Node.child?, orderly.get?_children resolved found]
  cases Assoc.get? (Entries.ofValue (s.get (Key.node path))) (CodeTable.segment.escape name) with
  | none => rfl
  | some v => rfl

/-- A name in a directory is that of a child. -/
theorem exists_child (orderly : s.Orderly) (resolved : IsResolved path) (found : s.node? path = some (.directory children))
    (member : name ∈ Assoc.names children) :
    ∃ v node, Assoc.get? children name = some v ∧ v ≠ .null ∧ Node.ofValue? v = some node := by
  cases looked : Assoc.get? children name with
  | none => exact absurd member (Assoc.get?_eq_none_iff.mp looked)
  | some v =>
    rw [orderly.get?_children resolved found] at looked
    obtain ⟨segs, names, rfl⟩ := resolved.exists_names
    rw [get_node names] at looked
    have canonical := orderly.canonical_entries _ _ (Assoc.mem_of_get? looked)
    obtain ⟨node, decoded⟩ := Node.exists_ofValue? canonical.ne_null
    refine ⟨v, node, rfl, ?_, decoded⟩
    rintro rfl
    exact canonical

/-- A directory has a name exactly if something stands at the path that the name leads to. -/
theorem mem_names_iff (orderly : s.Orderly) (resolved : IsResolved path) (valid : IsName name) :
    (∃ children, s.node? path = some (.directory children) ∧ name ∈ Assoc.names children) ↔
      s.get (Key.node (Path.join path name)) ≠ .null := by
  rw [orderly.get_node_join resolved valid]
  constructor
  · rintro ⟨children, found, member⟩
    obtain ⟨v, node, looked, present, -⟩ := orderly.exists_child resolved found member
    rw [← orderly.get?_children resolved found, looked]
    exact present
  · intro present
    have directory : s.node? path = some (.directory (Node.childrenOf (Entries.ofValue (s.get (Key.node path))))) := by
      rw [node?]
      generalize s.get (Key.node path) = v at present
      cases v with
      | mapping entries => rfl
      | _ => exact absurd rfl present
    refine ⟨_, directory, ?_⟩
    by_contra absent
    rw [← Assoc.get?_eq_none_iff, orderly.get?_children resolved directory] at absent
    rw [absent] at present
    exact present rfl

/-- Outside the metadata the names in a directory are proper. -/
theorem isProper (orderly : s.Orderly) (resolved : IsResolved path) (outside : Key.isMetadata path = false)
    (found : s.node? path = some (.directory children)) (member : name ∈ Assoc.names children) : IsProper name := by
  obtain ⟨segs, names, rfl⟩ := resolved.exists_names
  rw [directory_eq found, get_node names, nodePlace, orderly.childrenOf_eq, Assoc.names, List.map_map] at member
  obtain ⟨e, inside, rfl⟩ := List.mem_map.mp member
  obtain ⟨rest, leaf, seated⟩ := orderly.exists_leaf (Assoc.mem_names_of_mem inside)
  obtain ⟨escaped, -, same⟩ := orderly.exists_name (Assoc.mem_names_of_mem inside)
  rw [Function.comp_apply, same, CodeTable.unescape_escape CodeTable.lawful_segment]
  rw [same] at seated
  generalize whole : segs.map CodeTable.segment.escape ++ CodeTable.segment.escape escaped :: rest = above at seated
  cases seated with
  | @node others leaf filled proper _ =>
    have listed : CodeTable.segment.escape escaped ∈ others.map CodeTable.segment.escape := by
      rw [← whole]
      simp
    obtain ⟨n, inside, same⟩ := List.mem_map.mp listed
    exact Key.escape_injective same ▸ proper n inside
  | password text filled =>
    cases segs with
    | nil =>
      have own : CodeTable.segment.escape passwordDirectory = passwordDirectory := by decide
      have proper : IsProper passwordDirectory := by decide
      rwa [Key.escape_injective ((List.cons.inj whole).1.trans own.symm)]
    | cons first others => exact absurd (List.cons.inj whole).1 (Key.escape_ne_passwordDirectory names outside)

end Orderly

end Store

end TreeShell
