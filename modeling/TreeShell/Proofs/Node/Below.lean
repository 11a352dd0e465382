import TreeShell.Proofs.Node.Walk

/-! # The nodes below a node

A node lies below another if it is a child of it, or of a node below it, under the path that its name
gives it. In a tree without nulls whatever a walk visits lies below the start of the walk
(`below_of_mem_walk`), also where a key is no escaped name and where two keys stand for one name.
-/

namespace TreeShell.Node

open Value

/-- Whether a path is that of a node below the given node at a path. -/
inductive Below : String → Node → String → Prop
  | child {path name : String} {node child : Node} (found : node.child? name = some child) :
    Below path node (Path.join path name)
  | deeper {path name other : String} {node child : Node} (found : node.child? name = some child)
    (below : Below (Path.join path name) child other) : Below path node other

variable {path : String} {entries : Entries} {e : String × Option Node}

/-- The listings of the entries of a directory are those of its children, one for each name. -/
theorem ofPairs_listings (path : String) (entries : Entries) :
    Assoc.ofPairs (listings path entries) =
      Assoc.adapt (fun name v => listing (Path.join path name) v) (childrenOf entries) := by
  rw [childrenOf, Assoc.adapt_ofPairs, Assoc.adapt, List.map_map, listings_eq]
  rfl

theorem mem_childListings :
    e ∈ joinListings (Assoc.adapt (fun name v => listing (Path.join path name) v) (childrenOf entries)) ↔
      ∃ name v, (name, v) ∈ childrenOf entries ∧ e ∈ listing (Path.join path name) v := by
  rw [mem_joinListings]
  constructor
  · rintro ⟨l, listed, inside⟩
    obtain ⟨⟨name, v⟩, known, same⟩ := List.mem_map.mp listed
    cases same
    exact ⟨name, v, known, inside⟩
  · rintro ⟨name, v, known, inside⟩
    exact ⟨_, List.mem_map_of_mem known, inside⟩

theorem exists_ofValue? {v : Value} (present : v ≠ .null) : ∃ node, ofValue? v = some node := by
  cases v with
  | null => exact absurd rfl present
  | bool b => cases b <;> exact ⟨_, rfl⟩
  | _ => exact ⟨_, rfl⟩

/-- A child of a directory is one of its values. -/
theorem child?_of_mem {name : String} {v : Value} (member : (name, v) ∈ childrenOf entries) :
    (directory (childrenOf entries)).child? name = ofValue? v := by
  have distinct : (Assoc.names (childrenOf entries)).Nodup := Assoc.nodup_ofPairs _
  rw [child?, (Assoc.get?_eq_some_iff distinct).mpr member]
  rfl

theorem exists_mem_of_mem_childrenOf {name : String} {v : Value} (member : (name, v) ∈ childrenOf entries) :
    ∃ key, (key, v) ∈ entries := by
  obtain ⟨e, inside, same⟩ := List.mem_map.mp (Assoc.mem_ofPairs member)
  cases same
  exact ⟨e.1, inside⟩

/-- A listing holds the path it starts at and those of nodes below. -/
theorem below_of_mem_listing : (v : Value) → v.Canonical → ∀ path e, e ∈ listing path v →
    e.1 = path ∨ ∃ node, ofValue? v = some node ∧ Below path node e.1
  | .mapping entries, canonical, path, e, listed => by
    rw [listing, ofPairs_listings, List.mem_append, mem_childListings, List.mem_singleton] at listed
    rcases listed with ⟨name, v, known, further⟩ | rfl
    · obtain ⟨key, member⟩ := exists_mem_of_mem_childrenOf known
      have smaller := List.sizeOf_lt_of_mem member
      have canonicalChild := canonicalEntries_iff.mp canonical.2 _ member
      obtain ⟨child, decoded⟩ := exists_ofValue? canonicalChild.ne_null
      have found := (child?_of_mem known).trans decoded
      refine .inr ⟨_, ofValue?_mapping entries, ?_⟩
      rcases below_of_mem_listing v canonicalChild _ e further with same | ⟨node, decoded', below⟩
      · exact same ▸ .child found
      · obtain rfl := Option.some.inj (decoded.symm.trans decoded')
        exact .deeper found below
    · exact .inl rfl
  | .null, _, path, e, listed | .bool _, _, path, e, listed | .int _, _, path, e, listed
  | .real _, _, path, e, listed | .text _, _, path, e, listed | .list _, _, path, e, listed =>
    .inl (congrArg Prod.fst (List.mem_singleton.mp listed))
termination_by v => sizeOf v
decreasing_by
  simp only [Prod.mk.sizeOf_spec, Value.mapping.sizeOf_spec] at smaller ⊢
  omega

/-- Whatever a walk visits lies below its start. -/
theorem below_of_mem_walk {v : Value} {node : Node} {other : String} (settled : v.Settled)
    (found : ofValue? v = some node) (visited : other ∈ (node.walk path).map (·.1)) : Below path node other := by
  rcases v.mapping_or_scalar with ⟨entries, rfl⟩ | scalar
  · have canonical : (Value.mapping entries).Canonical := settled.resolve_left nofun
    rw [ofValue?_mapping] at found
    obtain rfl := Option.some.inj found
    obtain ⟨e, inside, rfl⟩ := List.mem_map.mp visited
    obtain ⟨kept, further⟩ := List.mem_filter.mp inside
    have listed : e ∈ listing path (.mapping entries) := by
      rw [listing, ofPairs_listings]
      exact List.mem_append_left _ kept
    rcases below_of_mem_listing _ canonical path e listed with same | ⟨other, decoded, below⟩
    · simp [same] at further
    · rw [ofValue?_mapping] at decoded
      obtain rfl := Option.some.inj decoded
      exact below
  · obtain ⟨content, rfl⟩ := eq_file_of_scalar scalar found
    exact absurd visited nofun

theorem start_mem_listing (path : String) (v : Value) : ∃ e ∈ listing path v, e.1 = path := by
  cases v with
  | mapping entries => exact ⟨_, List.mem_append_right _ (List.mem_singleton_self _), rfl⟩
  | _ => exact ⟨_, List.mem_singleton_self _, rfl⟩

/-- A node with a child is a directory, and the child is one of its values. -/
theorem exists_mem_of_child? {v : Value} {node child : Node} {name : String} (decoded : ofValue? v = some node)
    (found : node.child? name = some child) :
    ∃ entries w, v = .mapping entries ∧ (name, w) ∈ childrenOf entries ∧ ofValue? w = some child := by
  rcases v.mapping_or_scalar with ⟨entries, rfl⟩ | scalar
  · rw [ofValue?_mapping] at decoded
    obtain rfl := Option.some.inj decoded
    obtain ⟨w, held, child⟩ := Option.bind_eq_some_iff.mp found
    exact ⟨entries, w, rfl, Assoc.mem_of_get? held, child⟩
  · obtain ⟨content, rfl⟩ := eq_file_of_scalar scalar decoded
    cases found

/-- A listing holds every node below its start. -/
theorem mem_listing_of_below {v : Value} {node : Node} {other : String} (decoded : ofValue? v = some node)
    (below : Below path node other) : ∃ e ∈ listing path v, e.1 = other := by
  induction below generalizing v with
  | child found =>
    obtain ⟨entries, w, rfl, known, -⟩ := exists_mem_of_child? decoded found
    obtain ⟨e, inside, same⟩ := start_mem_listing (Path.join _ _) w
    rw [listing, ofPairs_listings]
    exact ⟨e, List.mem_append_left _ (mem_childListings.mpr ⟨_, w, known, inside⟩), same⟩
  | deeper found _ ih =>
    obtain ⟨entries, w, rfl, known, child⟩ := exists_mem_of_child? decoded found
    obtain ⟨e, inside, same⟩ := ih child
    rw [listing, ofPairs_listings]
    exact ⟨e, List.mem_append_left _ (mem_childListings.mpr ⟨_, w, known, inside⟩), same⟩

/-- A walk visits every node below its start that does not have the path of the start. -/
theorem mem_walk_of_below {v : Value} {node : Node} {other : String} (decoded : ofValue? v = some node)
    (below : Below path node other) (further : other ≠ path) : other ∈ (node.walk path).map (·.1) := by
  obtain ⟨e, inside, rfl⟩ := mem_listing_of_below decoded below
  cases v with
  | mapping entries =>
    rw [ofValue?_mapping] at decoded
    obtain rfl := Option.some.inj decoded
    rw [listing, ofPairs_listings, List.mem_append, List.mem_singleton] at inside
    rcases inside with listed | rfl
    · exact List.mem_map.mpr ⟨e, List.mem_filter.mpr ⟨listed, by simpa using further⟩, rfl⟩
    · exact absurd rfl further
  | _ => exact absurd (congrArg Prod.fst (List.mem_singleton.mp inside)) further

end TreeShell.Node
