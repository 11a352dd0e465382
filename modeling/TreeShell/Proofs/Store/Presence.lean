import TreeShell.Proofs.Store.Leaves
import TreeShell.Proofs.Store.Sound

/-! # Nodes that come and go

What stands at a path after a write elsewhere in the tree: a value leaves nothing at the paths below its own
that it does not cover (`get_set_node_eq_null_iff`), and removing a path takes along the directories above it
that hold nothing else (`Sound.get_remove_node_eq_null_iff`). A node stands at a path exactly if there is a leaf at
or below it.
-/

namespace TreeShell

open Key (nodePlace)
open Path (IsName IsResolved ofSegments)

/-- Whether a value that stands at a path leaves nothing at another path, which lies below. -/
def Value.Uncovers (value : Value) (target path : String) : Prop :=
  ∃ rest, rest ≠ [] ∧ Key.components (Key.node path) = Key.components (Key.node target) ++ rest ∧ value.find rest = .null

/-- No list begins with a longer one. -/
theorem not_prefix_of_longer (segs : List String) (name : String) (rest : List String) :
    ¬ segs ++ name :: rest <+: segs := by
  intro longer
  have bound := longer.length_le
  rw [List.length_append, List.length_cons] at bound
  omega

namespace Store

/-- Whether all that stands at or below a path is at or below another, which lies below it. -/
def Empties (s : Store) (removed path : String) : Prop :=
  Path.isWithin removed path = true ∧ removed ≠ path ∧
    ∀ place leaf, s.leafAt place = some leaf → Key.components (Key.node path) <+: place →
      Key.components (Key.node removed) <+: place

variable {s : Store} {path target removed : String} {value : Value}

/-- A node stands where there is a leaf, or a leaf below. -/
theorem get_node_ne_null_iff (canonical : Value.CanonicalEntries s.root) (resolved : IsResolved path) :
    s.get (Key.node path) ≠ .null ↔ ∃ place leaf, s.leafAt place = some leaf ∧ Key.components (Key.node path) <+: place := by
  have settled := settled_get canonical resolved
  have leaves (rest : List String) : s.leafAt (Key.components (Key.node path) ++ rest) =
      (s.get (Key.node path)).leafAt rest := s.leafAt_append _ rest
  constructor
  · intro there
    obtain ⟨rest, held⟩ := Value.exists_leafAt _ (settled.resolve_left there)
    obtain ⟨leaf, found⟩ := Option.isSome_iff_exists.mp held
    exact ⟨_, leaf, (leaves rest).trans found, List.prefix_append ..⟩
  · rintro ⟨-, leaf, found, rest, rfl⟩ gone
    rw [leaves, gone, Value.leafAt_null] at found
    cases found

/-- A value that is written leaves nothing at a path where something was exactly if it uncovers it. -/
theorem get_set_node_eq_null_iff (resolved : IsResolved path) (targetResolved : IsResolved target)
    (settled : value.Settled) (filled : value ≠ .null) (there : s.get (Key.node path) ≠ .null) :
    (s.set (Key.node target) value).get (Key.node path) = .null ↔ value.Uncovers target path := by
  have written := get_node_set targetResolved s value
  rw [settled.prune_eq, settled.settle_eq] at written
  obtain ⟨segs, names, rfl⟩ := resolved.exists_names
  obtain ⟨others, otherNames, rfl⟩ := targetResolved.exists_names
  rw [Value.Uncovers, Key.components_node names, Key.components_node otherNames]
  rcases prefix_or_apart others segs with ⟨rest, rfl⟩ | ⟨name, rest, rfl⟩ | aside
  · have valids (n : String) (member : n ∈ rest) : IsName n := names n (List.mem_append_right _ member)
    have below : nodePlace (others ++ rest) = nodePlace others ++ rest.map CodeTable.segment.escape := by
      simp [nodePlace]
    rw [get_node_append otherNames valids, written, (settled.find _).settle_eq, below]
    constructor
    · intro gone
      refine ⟨_, ?_, rfl, gone⟩
      intro here
      rw [here, Value.find_nil] at gone
      exact filled gone
    · rintro ⟨_, -, same, gone⟩
      rwa [List.append_cancel_left same]
  · -- above the written path there is at least what was written
    have valids (n : String) (member : n ∈ name :: rest) : IsName n := otherNames n (List.mem_append_right _ member)
    have part := get_node_append names valids (s.set (Key.node (ofSegments (segs ++ name :: rest))) value)
    rw [written] at part
    constructor
    · intro gone
      rw [gone, Value.find_null] at part
      exact absurd part filled
    · rintro ⟨further, -, same, -⟩
      have above : nodePlace (segs ++ name :: rest) <+: nodePlace segs := ⟨further, same.symm⟩
      exact (not_prefix_of_longer segs name rest (Key.nodePlace_prefix_iff.mp above)).elim
  · rw [get_node_set_apart names otherNames aside]
    refine ⟨fun gone => absurd gone there, ?_⟩
    rintro ⟨further, -, same, -⟩
    have below : nodePlace others <+: nodePlace segs := ⟨further, same.symm⟩
    exact absurd (Key.nodePlace_prefix_iff.mp below) aside.1

/-- After a removal nothing stands where nothing was, within the removed path, and at a directory that it
empties. -/
theorem Sound.get_remove_node_eq_null_iff (sound : s.Sound) (resolved : IsResolved path)
    (removedResolved : IsResolved removed) : (s.remove (Key.node removed)).get (Key.node path) = .null ↔
      s.get (Key.node path) = .null ∨ Path.isWithin path removed = true ∨ s.Empties removed path := by
  have after : Value.CanonicalEntries (s.remove (Key.node removed)).root :=
    Entries.canonical_put _ (Value.settled_prune _) sound.canonical
  have here := (get_node_ne_null_iff sound.canonical resolved).not
  have there := (get_node_ne_null_iff after resolved).not
  rw [not_not] at here there
  have notRoot := components_node_ne_nil removedResolved
  obtain ⟨segs, names, rfl⟩ := resolved.exists_names
  obtain ⟨others, otherNames, rfl⟩ := removedResolved.exists_names
  rw [Path.isWithin_ofSegments names otherNames, Empties, Path.isWithin_ofSegments otherNames names]
  rcases prefix_or_apart others segs with ⟨rest, rfl⟩ | ⟨name, rest, rfl⟩ | aside
  · have within := (Path.isWithin_ofSegments names otherNames).mpr (List.prefix_append ..)
    have nothing := get_node_remove_of_isWithin removedResolved resolved within s
    exact ⟨fun _ => .inr (.inl (List.prefix_append ..)), fun _ => nothing⟩
  · have above : segs <+: segs ++ name :: rest := List.prefix_append ..
    have proper : ofSegments (segs ++ name :: rest) ≠ ofSegments segs := by
      rw [ne_eq, Path.ofSegments_inj otherNames names]
      simp
    have stays {place : List String} (outside : ¬ Key.components (Key.node (ofSegments (segs ++ name :: rest))) <+: place) :=
      leafAt_put_null notRoot outside s
    have cleared {place : List String} (inside : Key.components (Key.node (ofSegments (segs ++ name :: rest))) <+: place) :
        (s.remove (Key.node (ofSegments (segs ++ name :: rest)))).leafAt place = none := by
      rw [remove, leafAt_put notRoot, if_pos inside]
      exact Value.leafAt_null _
    rw [there, here]
    constructor
    · intro none
      refine .inr (.inr ⟨above, proper, fun place leaf found below => ?_⟩)
      by_cases inside : Key.components (Key.node (ofSegments (segs ++ name :: rest))) <+: place
      · exact inside
      · exact absurd ⟨place, leaf, (stays inside).trans found, below⟩ none
    · rintro (none | within | ⟨-, -, only⟩) ⟨place, leaf, found, below⟩
      · by_cases inside : Key.components (Key.node (ofSegments (segs ++ name :: rest))) <+: place
        · rw [cleared inside] at found
          cases found
        · exact none ⟨place, leaf, (stays inside).symm.trans found, below⟩
      · exact (not_prefix_of_longer segs name rest within).elim
      · by_cases inside : Key.components (Key.node (ofSegments (segs ++ name :: rest))) <+: place
        · rw [cleared inside] at found
          cases found
        · exact inside (only place leaf ((stays inside).symm.trans found) below)
  · rw [remove_eq_set, get_node_set_apart names otherNames aside]
    refine ⟨.inl, ?_⟩
    rintro (gone | within | ⟨within, -⟩)
    · exact gone
    · exact absurd within aside.1
    · exact absurd within aside.2

end Store

end TreeShell
