import TreeShell.Proofs.CodeTable
import TreeShell.Proofs.Key.Components
import TreeShell.Proofs.Path.Resolved
import TreeShell.Proofs.Store.Lookup

/-! # Where nodes, passwords and working directories lie

The node at a path lies below `shellFS`, one escaped segment a level, so the order of paths is the order
of their places (`nodePlace_prefix_iff`). The password of a path lies directly in the mapping of all
passwords, in an entry of its own (`passwordEntry_inj`). A path that is neither the root nor metadata has
its node apart from that mapping, and working directories lie apart from both.
-/

namespace TreeShell.Key

open Path (IsName IsResolved ofSegments)

variable {segs others : List String} {path : String}

theorem isName_escape {s : String} (filled : s ≠ "") : IsName (CodeTable.segment.escape s) :=
  ⟨mt (CodeTable.escape_eq_empty_iff CodeTable.lawful_segment).mp filled, CodeTable.slash_not_mem_escape_segment s⟩

/-- The place of the node at the path with the given segments. -/
def nodePlace (segs : List String) : List String :=
  treeRoot :: segs.map CodeTable.segment.escape

theorem components_node (names : ∀ s ∈ segs, IsName s) : components (node (ofSegments segs)) = nodePlace segs := by
  rw [node, Path.segments_ofSegments names]
  refine components_intercalate fun part member => ?_
  rcases List.mem_cons.mp member with rfl | inside
  · decide
  · obtain ⟨s, segment, rfl⟩ := List.mem_map.mp inside
    exact isName_escape (names s segment).1

theorem components_escape {n : String} (valid : IsName n) :
    components (CodeTable.segment.escape n) = [CodeTable.segment.escape n] :=
  components_eq_singleton (isName_escape valid.1)

theorem nodePlace_concat (segs : List String) (n : String) :
    nodePlace (segs ++ [n]) = nodePlace segs ++ [CodeTable.segment.escape n] := by
  simp [nodePlace]

theorem escape_injective : Function.Injective CodeTable.segment.escape :=
  fun _ _ => (CodeTable.escape_inj CodeTable.lawful_segment).mp

/-- Places are ordered as the paths are. -/
theorem nodePlace_prefix_iff : nodePlace segs <+: nodePlace others ↔ segs <+: others := by
  rw [nodePlace, nodePlace, List.prefix_cons_inj, List.prefix_map_iff_of_injective escape_injective]

theorem nodePlace_inj : nodePlace segs = nodePlace others ↔ segs = others := by
  rw [nodePlace, nodePlace, List.cons.injEq, and_iff_right rfl, List.map_inj_right escape_injective]

theorem apart_nodePlace : Apart (nodePlace segs) (nodePlace others) ↔ Apart segs others := by
  rw [Apart, Apart, nodePlace_prefix_iff, nodePlace_prefix_iff]

theorem passwordPlace_eq : passwordPlace = nodePlace [passwordDirectory] := by
  decide

theorem isMetadata_ofSegments (names : ∀ s ∈ segs, IsName s) :
    isMetadata (ofSegments segs) = true ↔ [passwordDirectory] <+: segs := by
  have single : metadataPath = ofSegments [passwordDirectory] := by decide
  rw [isMetadata, single]
  exact Path.isWithin_ofSegments names (by decide)

/-- Only metadata lies at the password directory. -/
theorem escape_ne_passwordDirectory {first : String} {rest : List String} (names : ∀ s ∈ first :: rest, IsName s)
    (outside : isMetadata (ofSegments (first :: rest)) = false) :
    CodeTable.segment.escape first ≠ passwordDirectory := by
  have own : CodeTable.segment.escape passwordDirectory = passwordDirectory := by decide
  intro same
  have within : isMetadata (ofSegments (first :: rest)) = true := by
    rw [isMetadata_ofSegments names, escape_injective (same.trans own.symm)]
    exact List.prefix_append [_] rest
  rw [outside] at within
  exact absurd within (by decide)

/-- A path that is not metadata and not the root has its node apart from the passwords. -/
theorem apart_passwordPlace (names : ∀ s ∈ segs, IsName s) (notRoot : segs ≠ [])
    (outside : isMetadata (ofSegments segs) = false) : Apart passwordPlace (nodePlace segs) := by
  rw [passwordPlace_eq, apart_nodePlace]
  constructor
  · intro inside
    rw [(isMetadata_ofSegments names).mpr inside] at outside
    exact absurd outside (by decide)
  · intro above
    obtain ⟨first, rest, rfl⟩ := List.exists_cons_of_ne_nil notRoot
    rw [List.cons_prefix_cons] at above
    rw [List.prefix_nil.mp above.2, above.1, (isMetadata_ofSegments (by decide)).mpr List.prefix_rfl] at outside
    exact absurd outside (by decide)

/-- Whether a path is resolved and neither the root nor metadata. -/
def IsOrdinary (path : String) : Prop :=
  IsResolved path ∧ path ≠ "/" ∧ isMetadata path = false

theorem IsOrdinary.exists_segments (ordinary : IsOrdinary path) :
    ∃ segs, (∀ s ∈ segs, IsName s) ∧ segs ≠ [] ∧ path = ofSegments segs := by
  obtain ⟨resolved, notRoot, -⟩ := ordinary
  obtain ⟨segs, names, rfl⟩ := resolved.exists_names
  exact ⟨segs, names, mt (Path.ofSegments_eq_root_iff names).mpr notRoot, rfl⟩

/-- The entry of a path other than the root spells out the whole path. -/
theorem passwordEntry_ofSegments (names : ∀ s ∈ segs, IsName s) (notRoot : segs ≠ []) :
    passwordEntry (ofSegments segs) = CodeTable.segment.escape ("/".intercalate segs) := by
  have rest : String.ofList ((ofSegments segs).toList.drop 1) = "/".intercalate segs := by
    apply String.toList_injective
    simp [ofSegments, String.toList_intercalate]
  rw [passwordEntry, if_neg (mt (Path.ofSegments_eq_root_iff names).mp notRoot), rest]

theorem passwordEntry_root : passwordEntry (ofSegments []) = rootPassword := by
  decide

/-- Escaping never produces the entry of the root. -/
theorem escape_ne_rootPassword (s : String) : CodeTable.segment.escape s ≠ rootPassword := by
  intro same
  have back := congrArg CodeTable.segment.unescape same
  rw [CodeTable.unescape_escape CodeTable.lawful_segment] at back
  exact absurd (back ▸ same) (by decide)

theorem isName_passwordEntry (names : ∀ s ∈ segs, IsName s) : IsName (passwordEntry (ofSegments segs)) := by
  by_cases root : segs = []
  · subst root
    decide
  · rw [passwordEntry_ofSegments names root]
    refine isName_escape fun blank => root ?_
    rw [← Path.ofSegments_eq_root_iff names, ofSegments, blank]
    decide

/-- Different paths have different entries. -/
theorem passwordEntry_inj (names : ∀ s ∈ segs, IsName s) (otherNames : ∀ s ∈ others, IsName s) :
    passwordEntry (ofSegments segs) = passwordEntry (ofSegments others) ↔ segs = others := by
  refine ⟨fun same => ?_, fun same => by rw [same]⟩
  by_cases root : segs = [] <;> by_cases otherRoot : others = []
  · rw [root, otherRoot]
  · rw [root, passwordEntry_root, passwordEntry_ofSegments otherNames otherRoot] at same
    exact absurd same.symm (escape_ne_rootPassword _)
  · rw [otherRoot, passwordEntry_root, passwordEntry_ofSegments names root] at same
    exact absurd same (escape_ne_rootPassword _)
  · rw [passwordEntry_ofSegments names root, passwordEntry_ofSegments otherNames otherRoot] at same
    rw [← Path.ofSegments_inj names otherNames, ofSegments, escape_injective same, ofSegments]

theorem passwordEntry_eq_iff {other : String} (named : ∃ segs, (∀ s ∈ segs, IsName s) ∧ path = ofSegments segs)
    (otherNamed : ∃ segs, (∀ s ∈ segs, IsName s) ∧ other = ofSegments segs) :
    passwordEntry path = passwordEntry other ↔ path = other := by
  obtain ⟨segs, names, rfl⟩ := named
  obtain ⟨others, otherNames, rfl⟩ := otherNamed
  rw [passwordEntry_inj names otherNames, Path.ofSegments_inj names otherNames]

/-- The place of the password of a path. -/
theorem components_password (names : ∀ s ∈ segs, IsName s) :
    components (password (ofSegments segs)) = passwordPlace ++ [passwordEntry (ofSegments segs)] := by
  rw [password, components_append, components_passwords, components_eq_singleton (isName_passwordEntry names)]

theorem components_password_of_resolved (resolved : IsResolved path) :
    components (password path) = passwordPlace ++ [passwordEntry path] := by
  obtain ⟨segs, names, rfl⟩ := resolved.exists_names
  exact components_password names

/-- The password of a path is apart from every ordinary node. -/
theorem apart_password_node {other : String} (resolved : IsResolved path) (ordinary : IsOrdinary other) :
    Apart (components (password path)) (components (node other)) := by
  obtain ⟨segs, names, rfl⟩ := resolved.exists_names
  obtain ⟨others, otherNames, notRoot, rfl⟩ := ordinary.exists_segments
  rw [components_password names, components_node otherNames]
  exact (apart_passwordPlace otherNames notRoot ordinary.2.2).append_left _

theorem components_cwd (identity : String) :
    components (cwd identity) = cwdRoot :: components (CodeTable.identity.escape identity) := by
  rw [cwd, components_append, components_eq_singleton (by decide)]
  rfl

theorem apart_cwd_passwordPlace (identity : String) : Apart passwordPlace (components (cwd identity)) := by
  rw [components_cwd]
  exact apart_cons_of_ne (by decide)

theorem apart_cwd_nodePlace (identity : String) (segs : List String) :
    Apart (components (cwd identity)) (nodePlace segs) := by
  rw [components_cwd]
  exact apart_cons_of_ne (by decide)

end TreeShell.Key
