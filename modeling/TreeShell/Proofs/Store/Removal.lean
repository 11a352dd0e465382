import TreeShell.Proofs.Node.Walk
import TreeShell.Proofs.Store.Frame
import TreeShell.Proofs.Verb.Guard
import TreeShell.Verb.Remove

/-! # What a removal reaches

A removal takes the node at a path with all below it, and then the passwords of the paths that a walk of that node
visits. On any store, also one with keys that are no escaped names, the paths visited begin with the removed one and a
slash (`Node.exists_suffix_of_mem_walk`). So a removal drops no password but those of paths within the removed one
(`Store.entry_removals_apart`), where no node is left.
-/

namespace TreeShell

open Path (IsName IsResolved ofSegments)
open Key (IsOrdinary passwordEntry passwordPlace)

namespace Path

variable {path : String}

theorem join_of_ne_root (notRoot : path ≠ "/") (name : String) : join path name = path ++ "/" ++ name :=
  if_neg notRoot

/-- Whatever goes on from a text behind a slash is more than a slash. -/
theorem append_slash_ne_root (filled : path ≠ "") (rest : String) : path ++ "/" ++ rest ≠ "/" ∧ path ++ "/" ++ rest ≠ "" := by
  have long : 0 < path.length := Nat.pos_of_ne_zero (mt String.length_eq_zero_iff.mp filled)
  have lengths : (path ++ "/" ++ rest).length = path.length + 1 + rest.length := by
    rw [String.length_append, String.length_append]
    rfl
  constructor
  · intro same
    have one : (path ++ "/" ++ rest).length = 1 := congrArg String.length same
    omega
  · intro same
    have zero : (path ++ "/" ++ rest).length = 0 := congrArg String.length same
    omega

end Path

namespace Node

variable {e : String × Option Node}

/-- A listing holds the path it starts at, and paths that go on from there behind a slash. -/
theorem exists_suffix_of_mem_listing : (v : Value) → ∀ path, path ≠ "/" → path ≠ "" → e ∈ listing path v →
    e.1 = path ∨ ∃ rest, e.1 = path ++ "/" ++ rest
  | .mapping entries, path, notRoot, filled, listed => by
    rw [listing, List.mem_append, mem_joinListings, List.mem_singleton] at listed
    rcases listed with ⟨l, member, inside⟩ | rfl
    · obtain ⟨⟨key, v⟩, known, rfl⟩ := List.mem_map.mp (listings_eq path entries ▸ Assoc.mem_ofPairs member)
      have smaller := List.sizeOf_lt_of_mem known
      have further := Path.append_slash_ne_root filled (CodeTable.segment.unescape key)
      rw [Path.join_of_ne_root notRoot] at inside
      rcases exists_suffix_of_mem_listing v _ further.1 further.2 inside with same | ⟨rest, same⟩
      · exact .inr ⟨_, same⟩
      · exact .inr ⟨CodeTable.segment.unescape key ++ "/" ++ rest, by rw [same]; simp only [String.append_assoc]⟩
    · exact .inl rfl
  | .null, path, _, _, listed | .bool _, path, _, _, listed | .int _, path, _, _, listed
  | .real _, path, _, _, listed | .text _, path, _, _, listed | .list _, path, _, _, listed =>
    .inl (congrArg Prod.fst (List.mem_singleton.mp listed))
termination_by v => sizeOf v
decreasing_by
  simp only [Prod.mk.sizeOf_spec, Value.mapping.sizeOf_spec] at smaller ⊢
  omega

/-- What a walk visits goes on from its start behind a slash. -/
theorem exists_suffix_of_mem_walk {path other : String} {node : Node} (notRoot : path ≠ "/") (filled : path ≠ "")
    (visited : other ∈ (node.walk path).map (·.1)) : ∃ rest, other = path ++ "/" ++ rest := by
  obtain ⟨e, inside, rfl⟩ := List.mem_map.mp visited
  cases node with
  | file content => exact absurd inside List.not_mem_nil
  | directory children =>
    obtain ⟨l, member, listed⟩ := mem_joinListings.mp (List.mem_filter.mp inside).1
    obtain ⟨⟨name, v⟩, -, rfl⟩ := List.mem_map.mp member
    have further := Path.append_slash_ne_root filled name
    rw [Path.join_of_ne_root notRoot] at listed
    rcases exists_suffix_of_mem_listing v _ further.1 further.2 listed with same | ⟨rest, same⟩
    · exact ⟨name, same⟩
    · exact ⟨name ++ "/" ++ rest, by rw [same]; simp only [String.append_assoc]⟩

end Node

namespace Key

/-- A path and a resolved one have the same entry among the passwords only if they are the same. -/
theorem eq_of_passwordEntry_eq {chars : List Char} {q : String} (resolved : IsResolved q) (filled : chars ≠ [])
    (same : passwordEntry q = passwordEntry (String.ofList ('/' :: chars))) : q = String.ofList ('/' :: chars) := by
  have notRoot : String.ofList ('/' :: chars) ≠ "/" := by
    intro root
    have chars := congrArg String.toList root
    simp [filled] at chars
  obtain ⟨segs, names, rfl⟩ := resolved.exists_names
  by_cases root : segs = []
  · subst root
    rw [passwordEntry_root, passwordEntry, if_neg notRoot] at same
    exact absurd same.symm (escape_ne_rootPassword _)
  · rw [passwordEntry, passwordEntry, if_neg notRoot, if_neg (mt (Path.ofSegments_eq_root_iff names).mp root)] at same
    have tails := congrArg String.toList (escape_injective same)
    obtain ⟨first, others, rfl⟩ := List.exists_cons_of_ne_nil root
    apply String.toList_injective
    rw [Path.toList_ofSegments root] at tails ⊢
    simpa using tails

end Key

/-- A removal drops no password of a path that is not within the removed one. -/
theorem Store.entry_removals_apart {path q : String} (ordinary : IsOrdinary path) (resolved : IsResolved q)
    (outside : Path.isWithin q path = false) (node : Node) (recursive : Bool) (s : Store) :
    (s.update Key.passwords (Vault.removals (Verb.removedPaths path node recursive))).entry (passwordEntry q) =
      s.entry (passwordEntry q) := by
  obtain ⟨chars, filled, begins⟩ : ∃ chars, chars ≠ [] ∧ path = String.ofList ('/' :: chars) := by
    obtain ⟨segs, names, nonempty, rfl⟩ := ordinary.exists_segments
    obtain ⟨first, others, rfl⟩ := List.exists_cons_of_ne_nil nonempty
    have named := (names first (List.mem_cons_self ..)).1
    refine ⟨first.toList ++ others.flatMap fun s => '/' :: s.toList, ?_, ?_⟩
    · simp [named]
    · apply String.toList_injective
      rw [Path.toList_ofSegments nonempty]
      simp
  have notEmpty : path ≠ "" := by
    rw [begins]
    simp
  refine removals_induction (P := fun t => t.entry (passwordEntry q) = s.entry (passwordEntry q))
    (fun p member t kept => ?_) rfl
  obtain ⟨rest, goesOn, within⟩ : ∃ rest, p = String.ofList ('/' :: (chars ++ rest)) ∧ Path.isWithin p path = true := by
    have inside : p = path ∨ ∃ rest, p = path ++ "/" ++ rest := by
      rcases List.mem_cons.mp member with same | visited
      · exact .inl same
      · cases recursive with
        | false => exact absurd visited List.not_mem_nil
        | true => exact .inr (Node.exists_suffix_of_mem_walk ordinary.2.1 notEmpty visited)
    rcases inside with rfl | ⟨rest, rfl⟩
    · exact ⟨[], by rw [List.append_nil, begins], by simp [Path.isWithin]⟩
    · refine ⟨'/' :: rest.toList, ?_, ?_⟩
      · apply String.toList_injective
        rw [begins]
        simp
      · simp [Path.isWithin, Text.startsWith_iff]
  have entry : passwordEntry p = CodeTable.segment.escape (String.ofList (chars ++ rest)) := by
    have notRoot : p ≠ "/" := by
      intro root
      have chars := congrArg String.toList (goesOn.symm.trans root)
      simp [filled] at chars
    rw [passwordEntry, if_neg notRoot, goesOn]
    simp
  have named : IsName (passwordEntry p) := by
    rw [entry]
    refine Key.isName_escape ?_
    simp [filled]
  have differs : passwordEntry q ≠ passwordEntry p := by
    intro same
    rw [goesOn] at same
    have equal := Key.eq_of_passwordEntry_eq resolved (by simp [filled]) same
    rw [equal, ← goesOn, within] at outside
    cases outside
  rw [Key.components_eq_singleton named, entry_put, if_neg differs, kept]

end TreeShell
