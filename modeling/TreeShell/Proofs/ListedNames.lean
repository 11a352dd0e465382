import TreeShell.Proofs.Pipeline.Interleaved

/-! # Listed names are faithful

Whatever identities do without elevation, in whatever order, a directory shows each of its children under the name
that opens it: the keys of the file tree are escaped names, so decoding neither merges nor mislabels children, and
the path that a listed name leads to holds the node that is listed (`Interleaved.names_faithful`).
-/

namespace TreeShell

open Key (treeRoot)
open Path (IsResolved)
open Verb

/-- Names with the signs of what is found when each is looked up below a path. -/
def Store.listing (s : Store) (path : String) : List String → String
  | [] => "(empty directory)"
  | names => "\n".intercalate
      (names.map fun n => nameLine (((s.node? (Path.join path n)).map Node.isDirectory).getD false) n)

theorem Node.isDirectory_of_ofValue? {v : Value} {node : Node} (decoded : ofValue? v = some node) :
    node.isDirectory = v.isMapping := by
  cases v with
  | null => cases decoded
  | bool b => cases b <;> (cases decoded; rfl)
  | _ => cases decoded; rfl

namespace Store.Orderly

variable {s : Store} {path name : String} {children : Entries}

/-- The node that is listed under a name is found under it. -/
theorem listed (orderly : s.Orderly) (resolved : IsResolved path) (outside : Key.isMetadata path = false)
    (found : s.node? path = some (.directory children)) (member : name ∈ Assoc.names children) :
    ∃ node, (Node.directory children).child? name = some node ∧ s.node? (Path.join path name) = some node ∧
      ((Assoc.get? children name).map Value.isMapping).getD false = node.isDirectory := by
  have proper := orderly.isProper resolved outside found member
  obtain ⟨v, node, looked, -, decoded⟩ := orderly.exists_child resolved found member
  have child : (Node.directory children).child? name = some node := by rw [Node.child?, looked]; exact decoded
  refine ⟨node, child, (orderly.node?_join resolved proper.1 found).trans child, ?_⟩
  rw [looked, Node.isDirectory_of_ofValue? decoded]
  rfl

/-- A listing is what looking up each of its names gives. -/
theorem directoryListing_eq (orderly : s.Orderly) (resolved : IsResolved path) (outside : Key.isMetadata path = false)
    (found : s.node? path = some (.directory children)) (elevated : Bool) :
    directoryListing path children elevated = s.listing path (visibleNames path children elevated) := by
  have shown : ∀ n ∈ visibleNames path children elevated, n ∈ Assoc.names children := by
    intro n member
    have sorted : n ∈ Text.sort (Assoc.names children) := by
      unfold visibleNames at member
      split at member
      · exact List.mem_of_mem_filter member
      · exact member
    exact (List.mergeSort_perm ..).mem_iff.mp sorted
  have same : ∀ n ∈ visibleNames path children elevated,
      nameLine (((Assoc.get? children n).map Value.isMapping).getD false) n =
        nameLine (((s.node? (Path.join path n)).map Node.isDirectory).getD false) n := by
    intro n member
    obtain ⟨node, -, opened, kind⟩ := orderly.listed resolved outside found (shown n member)
    rw [kind, opened]
    rfl
  unfold directoryListing listing
  cases names : visibleNames path children elevated with
  | nil => rfl
  | cons first rest =>
    rw [names] at same
    dsimp only
    rw [List.map_congr_left same]

end Store.Orderly

/-- Whatever identities do without elevation, taking turns at any time, the file tree is absent or a mapping, all
keys in it are escaped names, and decoding merges no two of them. Outside the metadata each name of a directory is
one that `resolve` leaves alone, and at the path that it leads to stands the child that the directory has under
it, of the kind that a listing shows. -/
theorem Interleaved.names_faithful {shells : List Shell} {w : World} (interleaved : Interleaved shells w) :
    (w.backend.store.find [treeRoot] = .null ∨ (w.backend.store.find [treeRoot]).isMapping = true) ∧
    (∀ place entries, entries = Entries.ofValue (w.backend.store.find (treeRoot :: place)) →
      (∀ key ∈ Assoc.names entries, ∃ name, name ≠ "" ∧ key = CodeTable.segment.escape name) ∧
      (entries.map fun e => CodeTable.segment.unescape e.1).Nodup ∧
      Node.childrenOf entries = entries.map fun e => (CodeTable.segment.unescape e.1, e.2)) ∧
    ∀ path children, IsResolved path → Key.isMetadata path = false →
      w.backend.store.node? path = some (.directory children) →
      (∀ name ∈ Assoc.names children,
        '/' ∉ name.toList ∧ name ≠ "." ∧ name ≠ ".." ∧ Path.resolve name path = Path.join path name ∧
        (∀ cwd, Path.resolve (Path.join path name) cwd = Path.join path name) ∧
        ∃ node, (Node.directory children).child? name = some node ∧
          w.backend.store.node? (Path.join path name) = some node) ∧
      ∀ elevated, directoryListing path children elevated =
        w.backend.store.listing path (visibleNames path children elevated) := by
  have orderly := interleaved.orderly
  refine ⟨orderly.tree, ?_, ?_⟩
  · rintro place entries rfl
    exact ⟨fun key => orderly.exists_name,
      Node.nodup_unescape orderly.escape_unescape (orderly.distinct_entries _), orderly.childrenOf_eq place⟩
  · intro path children resolved outside found
    refine ⟨fun name member => ?_, orderly.directoryListing_eq resolved outside found⟩
    have proper := orderly.isProper resolved outside found member
    obtain ⟨node, child, opened, -⟩ := orderly.listed resolved outside found member
    exact ⟨proper.1.2, proper.2.1, proper.2.2, resolved.resolve_child proper, (resolved.join proper).resolve_eq,
      node, child, opened⟩

/-- What comes of two identities when one makes a directory while the editor of the other is open, who then moves
the edited file there. -/
def movedFromEditor : ShellResult :=
  let edited := Shell.exec { identity := "alice" } { backend := { store := .empty } } "vim a.b" none
  let made := Shell.exec { identity := "bob" } edited.world "mkdir d" none
  let saved := edited.shell.resume made.world (some "x")
  saved.shell.exec saved.world "mv a.b d" none

theorem Interleaved.moved_from_editor : ∃ bob, Interleaved [movedFromEditor.shell, bob] movedFromEditor.world := by
  have entered : Interleaved [{ identity := "alice" }, { identity := "bob" }] { backend := { store := .empty } } :=
    .enter (.enter (.start .none) "alice") "bob"
  have edited := @Interleaved.exec [] _ _ _ entered "vim a.b"
  have made := @Interleaved.exec [_] [] _ _ edited "mkdir d"
  have saved := @Interleaved.resume [] _ _ _ made (some "x")
  exact ⟨_, @Interleaved.exec [] _ _ _ saved "mv a.b d"⟩

/-- The moved file is listed under the name that opens it. -/
theorem Interleaved.names_faithful_after_move :
    movedFromEditor.world.backend.store.node? "/d" =
        some (.directory [("DONOTDELETE", .text "NODELETE"), ("a.b", .text "x")]) ∧
      Path.resolve "a.b" "/d" = "/d/a.b" ∧ movedFromEditor.world.backend.store.node? "/d/a.b" = some (.file "x") := by
  obtain ⟨bob, interleaved⟩ := Interleaved.moved_from_editor
  have resolved : IsResolved "/d" := ⟨["d"], by decide, by decide⟩
  have found : movedFromEditor.world.backend.store.node? "/d" =
      some (.directory [("DONOTDELETE", .text "NODELETE"), ("a.b", .text "x")]) := by
    decide +kernel
  obtain ⟨-, -, -, leads, -, node, child, opened⟩ :=
    ((names_faithful interleaved).2.2 "/d" _ resolved (by decide) found).1 "a.b" (by decide)
  obtain rfl : Node.file "x" = node := Option.some.inj child
  exact ⟨found, leads, opened⟩

end TreeShell
