import TreeShell.Proofs.Key.Places

/-! # Addresses never alias

Every address is a fixed prefix and then escaped components, glued with slashes (`Spells`). Escaping is
injective and its image is free of what the store refuses inside a key, so different paths and different
identities lie at different places, and the order of the places of nodes is the order of the paths.
-/

namespace TreeShell.Key

open Path (IsName IsResolved ofSegments)

/-- The characters that the store refuses inside a component. -/
def refused : List Char := ['.', '$', '#', '[', ']', '/']

/-- Whether a text can be a component of a stored key. -/
def Storable (part : String) : Prop :=
  part ≠ "" ∧ ∀ c ∈ refused, c ∉ part.toList

-- The search could also find an instance that decides the quantifier by trying every character there is.
instance (part : String) : Decidable (Storable part) :=
  have : Decidable (∀ c ∈ refused, c ∉ part.toList) := List.decidableBAll _ _
  instDecidableAnd

theorem Storable.isName {part : String} (storable : Storable part) : IsName part :=
  ⟨storable.1, storable.2 '/' (by decide)⟩

/-- A table that spells out every refused character, and by others, writes none of them. -/
theorem refused_not_mem_escape {t : CodeTable}
    (spelled : refused.all fun c => (t.codes.lookup c).isSome && t.codes.all fun code => c ∉ code.2) (s : String) :
    ∀ c ∈ refused, c ∉ (t.escape s).toList := by
  intro c listed
  obtain ⟨special, free⟩ : (t.codes.lookup c).isSome ∧ ∀ code ∈ t.codes, c ∉ code.2 := by
    simpa only [Bool.and_eq_true, List.all_eq_true, decide_eq_true_eq] using List.all_eq_true.mp spelled c listed
  rw [CodeTable.escape, String.toList_ofList]
  exact CodeTable.not_mem_encode special free _

/-- If it is lawful, these are storable components. -/
theorem storable_escape {t : CodeTable} (lawful : t.Lawful)
    (spelled : refused.all fun c => (t.codes.lookup c).isSome && t.codes.all fun code => c ∉ code.2) {s : String}
    (filled : s ≠ "") : Storable (t.escape s) :=
  ⟨mt (CodeTable.escape_eq_empty_iff lawful).mp filled, refused_not_mem_escape spelled s⟩

theorem storable_segment {s : String} (filled : s ≠ "") : Storable (CodeTable.segment.escape s) :=
  storable_escape CodeTable.lawful_segment (by decide) filled

theorem storable_identity {s : String} (filled : s ≠ "") : Storable (CodeTable.identity.escape s) :=
  storable_escape CodeTable.lawful_identity (by decide) filled

/-- Whether a key is a fixed prefix and then the given components, each of them storable. -/
structure Spells (key : String) (fixed added : List String) : Prop where
  glued : key = "/".intercalate (fixed ++ added)
  components_eq : components key = fixed ++ added
  storable : ∀ part ∈ added, Storable part

theorem spells_of_glued {key : String} {fixed added : List String} (glued : key = "/".intercalate (fixed ++ added))
    (names : ∀ part ∈ fixed, IsName part) (storable : ∀ part ∈ added, Storable part) : Spells key fixed added where
  glued := glued
  components_eq := by
    rw [glued]
    exact components_intercalate (Path.names_append names fun part member => (storable part member).isName)
  storable := storable

section Paths

variable {segs others : List String}

theorem spells_node (names : ∀ s ∈ segs, IsName s) :
    Spells (node (ofSegments segs)) [treeRoot] (segs.map CodeTable.segment.escape) := by
  refine spells_of_glued ?_ (by decide) fun part member => ?_
  · rw [node, Path.segments_ofSegments names]
    rfl
  · obtain ⟨s, segment, rfl⟩ := List.mem_map.mp member
    exact storable_segment (names s segment).1

theorem storable_passwordEntry (names : ∀ s ∈ segs, IsName s) : Storable (passwordEntry (ofSegments segs)) := by
  by_cases root : segs = []
  · subst root
    decide
  · have named := isName_passwordEntry names
    rw [passwordEntry_ofSegments names root] at named ⊢
    exact storable_segment (mt (CodeTable.escape_eq_empty_iff CodeTable.lawful_segment).mpr named.1)

theorem spells_password (names : ∀ s ∈ segs, IsName s) :
    Spells (password (ofSegments segs)) passwordPlace [passwordEntry (ofSegments segs)] := by
  refine spells_of_glued ?_ (by decide) fun part member => ?_
  · apply String.toList_injective
    simp [password, passwords, passwordPlace]
  · rw [List.mem_singleton.mp member]
    exact storable_passwordEntry names

theorem components_node_prefix_iff (names : ∀ s ∈ segs, IsName s) (otherNames : ∀ s ∈ others, IsName s) :
    components (node (ofSegments others)) <+: components (node (ofSegments segs)) ↔
      Path.isWithin (ofSegments segs) (ofSegments others) = true := by
  rw [components_node names, components_node otherNames, nodePlace_prefix_iff,
    Path.isWithin_ofSegments names otherNames]

theorem components_node_inj (names : ∀ s ∈ segs, IsName s) (otherNames : ∀ s ∈ others, IsName s) :
    components (node (ofSegments segs)) = components (node (ofSegments others)) ↔
      ofSegments segs = ofSegments others := by
  rw [components_node names, components_node otherNames, nodePlace_inj, Path.ofSegments_inj names otherNames]

theorem passwords_prefix_node_iff (names : ∀ s ∈ segs, IsName s) :
    components passwords <+: components (node (ofSegments segs)) ↔ isMetadata (ofSegments segs) = true := by
  rw [components_passwords, components_node names, passwordPlace_eq, nodePlace_prefix_iff, isMetadata_ofSegments names]

theorem components_password_inj (names : ∀ s ∈ segs, IsName s) (otherNames : ∀ s ∈ others, IsName s) :
    components (password (ofSegments segs)) = components (password (ofSegments others)) ↔
      ofSegments segs = ofSegments others := by
  rw [components_password names, components_password otherNames, List.append_cancel_left_eq, List.singleton_inj,
    passwordEntry_inj names otherNames, Path.ofSegments_inj names otherNames]

end Paths

section Identities

variable {identity rival : String}

theorem spells_identity {root : String} (named : IsName root) (filled : identity ≠ "") :
    Spells (root ++ "/" ++ CodeTable.identity.escape identity) [root] [CodeTable.identity.escape identity] := by
  refine spells_of_glued ?_ ?_ ?_
  · apply String.toList_injective
    simp
  · simpa using named
  · simpa using storable_identity filled

theorem spells_ban (filled : identity ≠ "") : Spells (ban identity) [banRoot] [CodeTable.identity.escape identity] := by
  rw [ban, if_neg filled]
  exact spells_identity (by decide) filled

theorem spells_cwd (filled : identity ≠ "") : Spells (cwd identity) [cwdRoot] [CodeTable.identity.escape identity] :=
  spells_identity (by decide) filled

/-- Two keys that go on from the same prefix by one identity each lie at the same place only for the same identity. -/
theorem components_identity_inj {key rivalKey : String} {fixed : List String}
    (spells : Spells key fixed [CodeTable.identity.escape identity])
    (rivalSpells : Spells rivalKey fixed [CodeTable.identity.escape rival]) :
    components key = components rivalKey ↔ identity = rival := by
  rw [spells.components_eq, rivalSpells.components_eq, List.append_cancel_left_eq, List.singleton_inj,
    CodeTable.escape_inj CodeTable.lawful_identity]

/-- The working directories of different identities lie apart. -/
theorem apart_cwd (filled : identity ≠ "") (rivalFilled : rival ≠ "") (differs : identity ≠ rival) :
    Apart (components (cwd identity)) (components (cwd rival)) := by
  rw [(spells_cwd filled).components_eq, (spells_cwd rivalFilled).components_eq]
  exact apart_concat (mt (CodeTable.escape_inj CodeTable.lawful_identity).mp differs)

end Identities

/-- Keys whose prefixes begin differently are apart. -/
theorem Spells.apart {key rival first other : String} {added others : List String} (spells : Spells key [first] added)
    (rivalSpells : Spells rival [other] others) (differs : first ≠ other) :
    Apart (components key) (components rival) := by
  rw [spells.components_eq, rivalSpells.components_eq]
  exact apart_cons_of_ne differs

/-- Addresses never alias: the places of nodes are ordered as the paths are and lie in the mapping of all passwords
exactly for metadata; passwords, bans and working directories lie one component below their prefixes, at different
places for different paths and identities; nodes, bans and working directories are apart from each other; and what
is added to a prefix is always storable. -/
theorem addresses_never_alias {path other identity rival : String} (resolved : IsResolved path)
    (otherResolved : IsResolved other) (filled : identity ≠ "") (rivalFilled : rival ≠ "") :
    ((components (node other) <+: components (node path) ↔ Path.isWithin path other = true) ∧
      (components (node path) = components (node other) ↔ path = other) ∧
      (components passwords <+: components (node path) ↔ isMetadata path = true)) ∧
    (components (password path) = components (password other) ↔ path = other) ∧
    (components (ban identity) = components (ban rival) ↔ identity = rival) ∧
    (components (cwd identity) = components (cwd rival) ↔ identity = rival) ∧
    (Apart (components (node path)) (components (ban identity)) ∧
      Apart (components (node path)) (components (cwd identity)) ∧
      Apart (components (ban identity)) (components (cwd rival))) ∧
    (∃ added, Spells (node path) [treeRoot] added) ∧
    (∃ entry, Spells (password path) [treeRoot, passwordDirectory] [entry]) ∧
    (∃ name, Spells (ban identity) [banRoot] [name]) ∧
    ∃ name, Spells (cwd identity) [cwdRoot] [name] := by
  obtain ⟨segs, names, rfl⟩ := resolved.exists_names
  obtain ⟨others, otherNames, rfl⟩ := otherResolved.exists_names
  have node := spells_node names
  refine ⟨⟨components_node_prefix_iff names otherNames, components_node_inj names otherNames,
      passwords_prefix_node_iff names⟩, components_password_inj names otherNames,
    components_identity_inj (spells_ban filled) (spells_ban rivalFilled),
    components_identity_inj (spells_cwd filled) (spells_cwd rivalFilled), ⟨?_, ?_, ?_⟩, ⟨_, node⟩,
    ⟨_, spells_password names⟩, ⟨_, spells_ban filled⟩, ⟨_, spells_cwd filled⟩⟩
  · exact node.apart (spells_ban filled) (by decide)
  · exact node.apart (spells_cwd filled) (by decide)
  · exact (spells_ban filled).apart (spells_cwd rivalFilled) (by decide)

/-- The root, a path that is spelled like its entry, and one whose entry would be the same without escaping. -/
theorem addresses_of_roots :
    components (password "/") ≠ components (password "/\\root") ∧
      components (password "/root") ≠ components (password "/\\root") ∧
      components (ban "a.b") ≠ components (ban "a*b") := by
  have root : IsResolved "/" := ⟨[], by decide, by decide⟩
  have plain : IsResolved "/root" := ⟨["root"], by decide, by decide⟩
  have marked : IsResolved "/\\root" := ⟨["\\root"], by decide, by decide⟩
  have dotted : "a.b" ≠ "" := by decide
  have starred : "a*b" ≠ "" := by decide
  have first := addresses_never_alias root marked dotted starred
  have second := addresses_never_alias plain marked dotted starred
  exact ⟨mt first.2.1.mp (by decide), mt second.2.1.mp (by decide), mt first.2.2.1.mp (by decide)⟩

example : [passwordEntry "/", passwordEntry "/root", passwordEntry "/\\root"] = ["\\root", "root", "\\\\root"] := by
  decide

end TreeShell.Key
