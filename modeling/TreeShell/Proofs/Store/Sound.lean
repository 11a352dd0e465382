import TreeShell.Proofs.Node.Walk
import TreeShell.Proofs.Store.Frame
import TreeShell.Proofs.Verb.Guard
import TreeShell.Verb.Remove

/-! # The file tree as the verbs keep it

In a sound store nothing is null or empty, and the file tree has escaped names for keys wherever it does
not hold passwords. There the paths that are removed along with a node are the node's own and those of
the nodes below it (`mem_removedPaths`).
-/

namespace TreeShell

open Key (IsOrdinary nodePlace)
open Path (IsName IsResolved ofSegments)

namespace Store

/-- Whether a store holds no null, no empty mapping and no name twice, and in the file tree, passwords
apart, escaped names only. -/
structure Sound (s : Store) : Prop where
  canonical : Value.CanonicalEntries s.root
  distinct : Value.Distinct (.mapping s.root)
  escaped : Value.EscapedEntries
    (Assoc.erase Key.passwordDirectory (Entries.ofValue ((Value.mapping s.root).find [Key.treeRoot])))

instance (s : Store) : Decidable s.Sound :=
  decidable_of_iff (Value.CanonicalEntries s.root ∧ Value.Distinct (.mapping s.root) ∧ Value.EscapedEntries
    (Assoc.erase Key.passwordDirectory (Entries.ofValue ((Value.mapping s.root).find [Key.treeRoot]))))
    ⟨fun ⟨canonical, distinct, escaped⟩ => ⟨canonical, distinct, escaped⟩,
      fun sound => ⟨sound.canonical, sound.distinct, sound.escaped⟩⟩

/-- Whether a path is a removed one or a node below it. -/
def GoesWith (s : Store) (path removed : String) : Prop :=
  path = removed ∨ (Path.isWithin path removed = true ∧ s.get (Key.node path) ≠ .null)

instance (s : Store) (path removed : String) : Decidable (s.GoesWith path removed) :=
  inferInstanceAs (Decidable (_ ∨ _))

variable {s : Store} {path : String} {segs : List String} {node : Node}

/-- Where a directory has no child of a name, nothing stands under that name. -/
theorem get_node_of_free (resolved : IsResolved path) (notRoot : path ≠ "/") {siblings : Entries}
    (parent : s.node? (Path.parent path) = some (.directory siblings))
    (free : Assoc.get? siblings (Path.name path) = none) : s.get (Key.node path) = .null := by
  obtain ⟨front, last, frontNames, lastName, rfl⟩ := resolved.exists_names_concat notRoot
  have lastNames : ∀ n ∈ [last], IsName n := by simpa using lastName
  rw [Path.parent_ofSegments front lastName, node?] at parent
  rw [Path.name_ofSegments front lastName] at free
  rw [get_node_append frontNames lastNames, List.map_singleton]
  generalize s.get (Key.node (ofSegments front)) = v at parent
  rcases v.mapping_or_scalar with ⟨entries, rfl⟩ | scalar
  · rw [Verb.loaded, Node.ofValue?_mapping] at parent
    obtain rfl := Node.directory.inj (Option.some.inj parent)
    have absent : Assoc.get? entries (CodeTable.segment.escape last) = none := by
      rw [Assoc.get?_eq_none_iff, Node.childrenOf, Assoc.mem_names_ofPairs] at free
      rw [Assoc.get?_eq_none_iff]
      intro member
      obtain ⟨e, inside, same⟩ := List.mem_map.mp member
      refine free (List.mem_map.mpr ⟨_, List.mem_map_of_mem inside, ?_⟩)
      rw [same, CodeTable.unescape_escape CodeTable.lawful_segment]
    rw [Value.find_mapping_cons, absent]
    rfl
  · rw [Value.find_cons_of_not_mapping scalar]
    rfl

/-- What stands at an ordinary path is tidy. -/
theorem Sound.tidy (sound : s.Sound) (ordinary : IsOrdinary path) : (s.get (Key.node path)).Tidy := by
  obtain ⟨segs, names, notRoot, rfl⟩ := ordinary.exists_segments
  obtain ⟨first, rest, rfl⟩ := List.exists_cons_of_ne_nil notRoot
  have away := Key.escape_ne_passwordDirectory names ordinary.2.2
  have top : (s.find [Key.treeRoot, CodeTable.segment.escape first]).Tidy := by
    refine ⟨settled_find sound.canonical _ _, ?_, ?_⟩
    · rw [find_eq_settle]
      exact (sound.distinct.find _).settle
    · have split : [Key.treeRoot, CodeTable.segment.escape first] = [Key.treeRoot] ++ [CodeTable.segment.escape first] := rfl
      rw [find_eq_settle, split, Value.find_append, ← Entries.find_ofValue, Value.find_mapping_cons, Value.find_nil]
      exact (Value.escaped_get?_of_erase sound.escaped away).settle
  have whole : nodePlace (first :: rest) =
      [Key.treeRoot, CodeTable.segment.escape first] ++ rest.map CodeTable.segment.escape := rfl
  have below := top.find (rest.map CodeTable.segment.escape)
  rw [get_node names, whole, find_append, below.settled.settle_eq]
  exact below

/-- A directory has a name in it. -/
theorem Sound.names_ne_nil (sound : s.Sound) (resolved : IsResolved path)
    (found : Node.ofValue? (s.get (Key.node path)) = some node) (directory : node.isDirectory = true) :
    node.names ≠ [] := by
  have settled := settled_get sound.canonical resolved
  generalize s.get (Key.node path) = v at found settled
  rcases v.mapping_or_scalar with ⟨entries, rfl⟩ | scalar
  · rw [Node.ofValue?_mapping] at found
    obtain rfl := Option.some.inj found
    obtain ⟨nonempty, -⟩ : entries ≠ [] ∧ _ := settled.resolve_left nofun
    obtain ⟨e, rest, rfl⟩ := List.exists_cons_of_ne_nil nonempty
    have member : CodeTable.segment.unescape e.1 ∈ Assoc.names (Node.childrenOf (e :: rest)) := by
      rw [Node.childrenOf, Assoc.mem_names_ofPairs]
      exact List.mem_cons_self ..
    exact List.ne_nil_of_mem member
  · obtain ⟨content, rfl⟩ := Node.eq_file_of_scalar scalar found
    exact absurd directory nofun

/-- A walk of the node at an ordinary path visits the paths of the nodes below it. -/
theorem Sound.mem_walk (sound : s.Sound) (names : ∀ s ∈ segs, IsName s) (ordinary : IsOrdinary (ofSegments segs))
    (found : Node.ofValue? (s.get (Key.node (ofSegments segs))) = some node) :
    path ∈ (node.walk (ofSegments segs)).map (·.1) ↔
      ∃ rest, rest ≠ [] ∧ (∀ s ∈ rest, IsName s) ∧ path = ofSegments (segs ++ rest) ∧ s.get (Key.node path) ≠ .null := by
  have tidy := sound.tidy ordinary
  have below (rest : List String) (valids : ∀ s ∈ rest, IsName s) := get_node_append names valids s
  generalize s.get (Key.node (ofSegments segs)) = v at found tidy below
  obtain ⟨settled, distinct, escaped⟩ := tidy
  have present (rest : List String) (valids : ∀ s ∈ rest, IsName s) :
      s.get (Key.node (ofSegments (segs ++ rest))) = v.find (rest.map CodeTable.segment.escape) := by
    rw [below rest valids, (settled.find _).settle_eq]
  rcases v.mapping_or_scalar with ⟨entries, rfl⟩ | scalar
  · rw [Node.ofValue?_mapping] at found
    obtain rfl := Option.some.inj found
    have canonical : (Value.mapping entries).Canonical := settled.resolve_left nofun
    rw [List.mem_map]
    constructor
    · rintro ⟨e, visited, rfl⟩
      obtain ⟨rest, w, nonempty, valids, reached, rfl⟩ := (Node.mem_walk names escaped distinct).mp visited
      refine ⟨rest, nonempty, valids, rfl, ?_⟩
      rw [present rest valids, ← canonical.reach?_isSome_iff, reached]
      rfl
    · rintro ⟨rest, nonempty, valids, rfl, there⟩
      rw [present rest valids, ← canonical.reach?_isSome_iff, Option.isSome_iff_exists] at there
      obtain ⟨w, reached⟩ := there
      exact ⟨_, (Node.mem_walk names escaped distinct).mpr ⟨rest, w, nonempty, valids, reached, rfl⟩, rfl⟩
  · obtain ⟨content, rfl⟩ := Node.eq_file_of_scalar scalar found
    constructor
    · exact nofun
    · rintro ⟨rest, nonempty, valids, rfl, there⟩
      obtain ⟨n, rest, rfl⟩ := List.exists_cons_of_ne_nil nonempty
      rw [present _ valids, List.map_cons, Value.find_cons_of_not_mapping scalar] at there
      exact absurd rfl there

/-- Along with a node go its own path and those of the nodes below it. -/
theorem Sound.mem_removedPaths_ofSegments (sound : s.Sound) {removed : String} (ordinary : IsOrdinary removed)
    (found : Node.ofValue? (s.get (Key.node removed)) = some node) {others : List String}
    (otherNames : ∀ s ∈ others, IsName s) :
    ofSegments others ∈ Verb.removedPaths removed node true ↔ s.GoesWith (ofSegments others) removed := by
  obtain ⟨segs, names, notRoot, rfl⟩ := ordinary.exists_segments
  rw [Verb.removedPaths, if_pos rfl, List.mem_cons, sound.mem_walk names ordinary found, GoesWith,
    Path.isWithin_ofSegments otherNames names]
  constructor
  · rintro (same | ⟨rest, -, valids, same, there⟩)
    · exact .inl same
    · rw [Path.ofSegments_inj otherNames (Path.names_append names valids)] at same
      exact .inr ⟨⟨rest, same.symm⟩, there⟩
  · rintro (same | ⟨⟨rest, rfl⟩, there⟩)
    · exact .inl same
    · by_cases here : rest = []
      · exact .inl (by rw [here, List.append_nil])
      · exact .inr ⟨rest, here, fun n member => otherNames n (List.mem_append_right _ member), rfl, there⟩

theorem Sound.mem_removedPaths (sound : s.Sound) {removed : String} (ordinary : IsOrdinary removed)
    (found : Node.ofValue? (s.get (Key.node removed)) = some node) (resolved : IsResolved path) :
    path ∈ Verb.removedPaths removed node true ↔ s.GoesWith path removed := by
  obtain ⟨others, otherNames, rfl⟩ := resolved.exists_names
  exact sound.mem_removedPaths_ofSegments ordinary found otherNames

/-- The paths removed along with a node have names for segments. -/
theorem Sound.names_removedPaths (sound : s.Sound) {removed : String} (ordinary : IsOrdinary removed)
    (found : Node.ofValue? (s.get (Key.node removed)) = some node) :
    ∀ path ∈ Verb.removedPaths removed node true, ∃ segs, (∀ s ∈ segs, IsName s) ∧ path = ofSegments segs := by
  obtain ⟨segs, names, notRoot, rfl⟩ := ordinary.exists_segments
  intro path member
  rw [Verb.removedPaths, if_pos rfl, List.mem_cons, sound.mem_walk names ordinary found] at member
  rcases member with rfl | ⟨rest, -, valids, rfl, -⟩
  · exact ⟨segs, names, rfl⟩
  · exact ⟨_, Path.names_append names valids, rfl⟩

end Store

end TreeShell
