import Mathlib.Logic.Relation
import TreeShell.Proofs.Node.Below

/-! # Walking with a stack

A walk needs no recursion. A directory on top of a stack is put back as expanded, with its children above it; anything else
on top is visited and taken off. Nothing below is touched until then: whatever value stands at the path on top, the loop
comes to the stack below it and has visited the listing of that value (`leads_frame`). So the loop that begins with a
directory alone ends, and what it has visited is the walk of the directory (`leads_walk`).
-/

namespace TreeShell.Node

/-- A path on the stack with the node there. -/
structure Frame where
  path : String
  node : Option Node
  /-- Whether the children of the node have been put on the stack. -/
  expanded : Bool
deriving DecidableEq, Repr

/-- A walk under way. -/
structure Traversal where
  stack : List Frame
  visited : List (String × Option Node)
deriving DecidableEq, Repr

/-- The children of a node at a path as they are put on the stack, one by one: the last one comes to lie on top. -/
def childFrames (path : String) (node : Node) : List Frame :=
  (node.names.map fun name => ⟨Path.join path name, node.child? name, false⟩).reverse

/-- One turn of the loop of a walk that starts at a path, unless the stack is empty. -/
def turn? (start : String) : Traversal → Option Traversal
  | ⟨[], _⟩ => none
  | ⟨⟨path, some (.directory children), false⟩ :: stack, visited⟩ =>
    some ⟨childFrames path (.directory children) ++ ⟨path, some (.directory children), true⟩ :: stack, visited⟩
  | ⟨⟨path, node, _⟩ :: stack, visited⟩ => some ⟨stack, if path = start then visited else visited ++ [(path, node)]⟩

/-- Whether the loop comes from one state to another. -/
def Leads (start : String) : Traversal → Traversal → Prop :=
  Relation.ReflTransGen fun before after => turn? start before = some after

variable {start path : String} {entries : Entries}

/-- The entries of a listing that a walk visits. -/
def visible (start : String) (listing : List (String × Option Node)) : List (String × Option Node) :=
  listing.filter fun entry => entry.1 ≠ start

theorem visible_append (start : String) (first second : List (String × Option Node)) :
    visible start (first ++ second) = visible start first ++ visible start second :=
  List.filter_append ..

/-- The frames of the children of a stored mapping. -/
theorem childFrames_childrenOf (path : String) (entries : Entries) :
    childFrames path (.directory (childrenOf entries)) =
      (childrenOf entries).reverse.map fun c => ⟨Path.join path c.1, ofValue? c.2, false⟩ := by
  rw [childFrames, names, Assoc.names, List.map_map, ← List.map_reverse]
  apply List.map_congr_left
  intro c listed
  rw [Function.comp_apply, child?_of_mem (List.mem_reverse.mp listed)]

theorem joinListings_adapt (path : String) (entries : Entries) :
    joinListings (Assoc.adapt (fun name v => listing (Path.join path name) v) (childrenOf entries)) =
      (childrenOf entries).reverse.flatMap fun c => listing (Path.join path c.1) c.2 := by
  rw [joinListings, Assoc.adapt, ← List.map_reverse, List.flatMap_map]

/-- A frame without children to put above it takes one turn. -/
theorem leads_visit {node : Option Node} {expanded : Bool} (done : ∀ children, node = some (.directory children) → expanded = true)
    (stack : List Frame) (visited : List (String × Option Node)) :
    Leads start ⟨⟨path, node, expanded⟩ :: stack, visited⟩ ⟨stack, visited ++ visible start [(path, node)]⟩ := by
  apply Relation.ReflTransGen.single
  have turned : turn? start ⟨⟨path, node, expanded⟩ :: stack, visited⟩ =
      some ⟨stack, if path = start then visited else visited ++ [(path, node)]⟩ := by
    rw [turn?]
    intro children isDirectory fresh
    rw [done children isDirectory] at fresh
    cases fresh
  rw [turned, visible]
  by_cases same : path = start <;> simp [same]

theorem listing_of_scalar {v : Value} (scalar : v.isMapping = false) (path : String) : listing path v = [(path, ofValue? v)] := by
  cases v with
  | mapping entries => cases scalar
  | _ => rfl

/-- What is no directory is visited at once. -/
theorem leads_scalar {v : Value} (scalar : v.isMapping = false) (stack : List Frame) (visited : List (String × Option Node)) :
    Leads start ⟨⟨path, ofValue? v, false⟩ :: stack, visited⟩ ⟨stack, visited ++ visible start (listing path v)⟩ := by
  rw [listing_of_scalar scalar]
  apply leads_visit
  intro children isDirectory
  obtain ⟨content, isFile⟩ := eq_file_of_scalar scalar isDirectory
  cases isFile

/-- If every single frame is worked off with its listing visited, so are several, one after the other. -/
theorem leads_frames {children : Entries}
    (each : ∀ c ∈ children, ∀ stack visited, Leads start ⟨⟨Path.join path c.1, ofValue? c.2, false⟩ :: stack, visited⟩
      ⟨stack, visited ++ visible start (listing (Path.join path c.1) c.2)⟩)
    (stack : List Frame) (visited : List (String × Option Node)) :
    Leads start ⟨(children.map fun c => ⟨Path.join path c.1, ofValue? c.2, false⟩) ++ stack, visited⟩
      ⟨stack, visited ++ visible start (children.flatMap fun c => listing (Path.join path c.1) c.2)⟩ := by
  induction children generalizing visited with
  | nil =>
    rw [List.flatMap_nil, visible, List.filter_nil, List.append_nil]
    exact .refl
  | cons c rest ih =>
    obtain ⟨first, others⟩ := List.forall_mem_cons.mp each
    rw [List.flatMap_cons, visible_append, ← List.append_assoc, List.map_cons, List.cons_append]
    exact (first _ visited).trans (ih others _)

/-- The loop takes the frame of a value off the stack, and on the way it visits the listing of the value. -/
theorem leads_frame : (v : Value) → ∀ path stack visited, Leads start ⟨⟨path, ofValue? v, false⟩ :: stack, visited⟩
    ⟨stack, visited ++ visible start (listing path v)⟩
  | .mapping entries, path, stack, visited => by
    have each : ∀ c ∈ (childrenOf entries).reverse, ∀ stack visited,
        Leads start ⟨⟨Path.join path c.1, ofValue? c.2, false⟩ :: stack, visited⟩
          ⟨stack, visited ++ visible start (listing (Path.join path c.1) c.2)⟩ := by
      intro c listed
      obtain ⟨key, member⟩ := exists_mem_of_mem_childrenOf (List.mem_reverse.mp listed)
      have smaller := List.sizeOf_lt_of_mem member
      exact leads_frame c.2 _
    let below : Frame := ⟨path, ofValue? (.mapping entries), true⟩
    have expands : Leads start ⟨⟨path, ofValue? (.mapping entries), false⟩ :: stack, visited⟩
        ⟨((childrenOf entries).reverse.map fun c => ⟨Path.join path c.1, ofValue? c.2, false⟩) ++ below :: stack, visited⟩ := by
      rw [← childFrames_childrenOf]
      exact .single rfl
    have works := leads_frames each (below :: stack) visited
    have visitedAll : visible start (listing path (.mapping entries)) =
        visible start ((childrenOf entries).reverse.flatMap fun c => listing (Path.join path c.1) c.2) ++
          visible start [(path, ofValue? (.mapping entries))] := by
      rw [listing, ofPairs_listings, joinListings_adapt, visible_append]
    rw [visitedAll, ← List.append_assoc]
    exact expands.trans (works.trans (leads_visit (fun _ _ => rfl) stack _))
  | .null, _, stack, visited | .bool _, _, stack, visited | .int _, _, stack, visited | .real _, _, stack, visited
  | .text _, _, stack, visited | .list _, _, stack, visited => leads_scalar rfl stack visited
termination_by v => sizeOf v
decreasing_by
  simp only [Prod.mk.sizeOf_spec, Value.mapping.sizeOf_spec] at smaller ⊢
  omega

/-- The walk of a stored mapping is its listing without the mapping itself. -/
theorem walk_childrenOf (path : String) (entries : Entries) :
    walk path (.directory (childrenOf entries)) = visible path (listing path (.mapping entries)) := by
  rw [listing, ofPairs_listings, visible_append]
  simp [walk, visible, Assoc.adapt]

/-- The loop that starts with a directory ends, and has then visited what the walk lists. -/
theorem leads_walk (path : String) (entries : Entries) :
    Leads path ⟨[⟨path, ofValue? (.mapping entries), false⟩], []⟩ ⟨[], walk path (.directory (childrenOf entries))⟩ := by
  rw [walk_childrenOf]
  exact leads_frame (.mapping entries) path [] []

end TreeShell.Node
