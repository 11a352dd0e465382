import TreeShell.Proofs.Store.Deletions
import TreeShell.Proofs.Verb.Leaves

/-! # What a move brings

A move writes the value of its source at its destination and then removes the source, in one tree. The source
may lie inside the destination, as in a move of `/a/b/a` to `/a`, and then the removal can reach the value that
was just written. So a move brings the whole value exactly if it has nothing at the place of the source, nor,
where the destination is metadata, at that of a password that goes with the source
(`VerbCall.moved_whole_iff`).
-/

namespace TreeShell

open Key (IsOrdinary passwordPlace)
open Path (IsName IsResolved isResolved_resolve)
open Verb

namespace Store

/-- The places that are emptied along with a node: its own, and those of the passwords of several paths. -/
def removalPlaces (path : String) (paths : List String) : List (List String) :=
  Key.components (Key.node path) ::
    (Vault.removals paths).map fun p => Key.components Key.passwords ++ Key.components p.1

theorem mem_removalPlaces {path : String} {paths : List String} {place : List String} :
    place ∈ removalPlaces path paths ↔
      place = Key.components (Key.node path) ∨ ∃ p ∈ paths, place = Key.components (Key.password p) := by
  simp only [removalPlaces, List.mem_cons, List.mem_map, Key.password, Key.components_append]
  refine or_congr_right ⟨?_, ?_⟩
  · rintro ⟨e, member, rfl⟩
    obtain ⟨p, inside, rfl⟩ := mem_removals member
    exact ⟨p, inside, rfl⟩
  · rintro ⟨p, inside, rfl⟩
    obtain ⟨e, member, same⟩ := List.mem_map.mp (mem_names_removals.mpr ⟨p, inside, rfl⟩)
    exact ⟨e, member, by rw [same]⟩

variable {s : Store} {target removed : String} {value : Value}

/-- No deletion of a password meets what stands at an ordinary path. -/
theorem password_not_meets (ordinary : IsOrdinary target) (value : Value) (path : String) :
    ¬ value.Meets (Key.components (Key.node target)) (Key.components (Key.password path)) := by
  obtain ⟨segs, names, filled, rfl⟩ := ordinary.exists_segments
  have apart := (Key.apart_passwordPlace names filled ordinary.2.2).append_left (Key.components (Key.passwordEntry path))
  rw [Key.password, Key.components_append, Key.components_passwords, Key.components_node names]
  exact apart.not_meets value

/-- A value that is written before a removal is there afterwards exactly if no deletion of the removal meets it. -/
theorem get_deleteAll_set (canonical : Value.CanonicalEntries s.root) (resolved : IsResolved target)
    (removedResolved : IsResolved removed) (settled : value.Settled) (filled : value ≠ .null) (paths : List String) :
    ((s.set (Key.node target) value).deleteAll (removalPlaces removed paths)).get (Key.node removed) = .null ∧
      (((s.set (Key.node target) value).deleteAll (removalPlaces removed paths)).get (Key.node target) = value ↔
        ¬ value.Meets (Key.components (Key.node target)) (Key.components (Key.node removed)) ∧
        ∀ path ∈ paths, ¬ value.Meets (Key.components (Key.node target)) (Key.components (Key.password path))) := by
  have arrived : (s.set (Key.node target) value).find (Key.components (Key.node target)) = value := by
    have written := get_node_set resolved s value
    rwa [settled.prune_eq, settled.settle_eq] at written
  have written : Value.CanonicalEntries (s.set (Key.node target) value).root :=
    Entries.canonical_put _ (Value.settled_prune _) canonical
  have places : ∀ place ∈ removalPlaces removed paths, place ≠ [] := by
    intro place member
    rcases mem_removalPlaces.mp member with rfl | ⟨path, -, rfl⟩
    · exact components_node_ne_nil removedResolved
    · rw [Key.password, Key.components_append, Key.components_passwords]
      simp [passwordPlace]
  have outlasts := find_deleteAll_iff places written (components_node_ne_nil resolved) (arrived.symm ▸ filled)
  rw [arrived] at outlasts
  refine ⟨find_deleteAll_of_mem places written (List.mem_cons_self ..), outlasts.trans ?_⟩
  constructor
  · intro spared
    refine ⟨spared _ (List.mem_cons_self ..), fun path member => spared _ ?_⟩
    exact mem_removalPlaces.mpr (.inr ⟨path, member, rfl⟩)
  · rintro ⟨node, passwords⟩ place member
    rcases mem_removalPlaces.mp member with rfl | ⟨path, listed, rfl⟩
    · exact node
    · exact passwords path listed

end Store

namespace Verb

/-- The store after a node was removed with its passwords. -/
theorem store_removed (u : Solo) (path : String) (node : Node) (recursive : Bool) (reason : Option ElevationReason) :
    (removed u path node recursive reason).store =
      u.store.deleteAll (Store.removalPlaces path (removedPaths path node recursive)) := by
  rw [removed, Solo.store_record, Solo.store_perform_update, Store.update_removals_eq_deleteAll, Solo.store_perform_remove]
  rfl

/-- A move takes along the paths whose passwords it removes. -/
theorem mem_removedPaths_iff_takes {u v : Solo} {source target : String} {elevated : Bool} {node : Node}
    (canonical : Value.CanonicalEntries u.store.root) (ready : MoveReady u v source target elevated node)
    (path : String) : path ∈ removedPaths (Path.resolve source u.cwd) node node.isDirectory ↔
      (VerbCall.mv source target).Takes u.store u.cwd path := by
  have stands : u.store.node? (Path.resolve source u.cwd) = some node := by
    rw [Store.node?, loaded_of_ne_root ready.sourceNotRoot, ready.found]
  constructor
  · intro member
    have inside := below_of_mem_removedPaths canonical (isResolved_resolve source u.cwd) ready.found member
    exact ⟨source, rfl, inside.imp_right fun below => ⟨node, stands, below⟩⟩
  · rintro ⟨label, removes, inside⟩
    obtain rfl := Option.some.inj (Option.mem_def.mp removes)
    rw [removedPaths, List.mem_cons]
    by_cases same : path = Path.resolve source u.cwd
    · exact .inl same
    · obtain ⟨other, found, below⟩ := inside.resolve_left same
      obtain rfl := Option.some.inj (stands.symm.trans found)
      have visited := Node.mem_walk_of_below ready.found below same
      cases node with
      | file content => exact absurd visited List.not_mem_nil
      | directory children => exact .inr visited

/-- What a move that replies does to a store: one write, and then the deletions of the removal. -/
theorem store_mv {u : Solo} {r : Result × Solo} {source target reply : String} {elevation : Option Elevation}
    (played : (mv source target elevation).play u = r) (replied : r.1 = .ok reply) :
    ∃ v node, MoveReady u v source target elevation.isSome node ∧
      r.2.store = (u.store.set (Key.node (arrival u.store u.cwd source target))
        (u.store.get (Key.node (Path.resolve source u.cwd)))).deleteAll
        (Store.removalPlaces (Path.resolve source u.cwd)
          (removedPaths (Path.resolve source u.cwd) node node.isDirectory)) := by
  rcases mv_cases source target elevation u with refused | ⟨v, node, ready, done⟩
  · rw [played] at refused
    exact absurd replied (refused.not_replied reply)
  · obtain rfl := played.symm.trans done
    refine ⟨v, node, ready, ?_⟩
    rw [store_removed, Solo.store_perform_set, ready.asks.store]

end Verb

/-- After a move that replies nothing stands at its source. At its destination stands the value of the source,
exactly if the removal of the source, and in metadata the dropping of a password, does not meet it there. -/
theorem VerbCall.moved_whole_iff (source target identity : String) (elevation : Option Elevation)
    (answers : List Answer) {m : Machine} (noFaults : m.world.backend.faults = FaultSchedule.none)
    (canonical : Value.CanonicalEntries m.world.backend.store.root)
    (replied : Replied (((VerbCall.mv source target).program identity elevation).converse answers m).result) :
    let s := m.world.backend.store
    let t := (((VerbCall.mv source target).program identity elevation).converse answers m).machine.world.backend.store
    let value := s.get (Key.node (Path.resolve source m.cwd))
    let final := arrival s m.cwd source target
    t.get (Key.node (Path.resolve source m.cwd)) = .null ∧
      (t.get (Key.node final) = value ↔
        ¬ value.Meets (Key.components (Key.node final)) (Key.components (Key.node (Path.resolve source m.cwd))) ∧
        (Key.isMetadata final = true → ∀ path, (VerbCall.mv source target).Takes s m.cwd path →
          ¬ value.Meets (Key.components (Key.node final)) (Key.components (Key.password path)))) := by
  obtain ⟨result, store, -, -, -⟩ :=
    ((VerbCall.mv source target).program identity elevation).converse_eq_play answers noFaults
  dsimp only
  generalize played : ((VerbCall.mv source target).program identity elevation).play (m.solo answers) = r at result store
  obtain ⟨reply, replies⟩ := replied
  obtain ⟨v, node, ready, written⟩ := store_mv played (Except.ok.inj (result.symm.trans replies))
  have sourceResolved := isResolved_resolve source m.cwd
  obtain ⟨resolved, notRoot⟩ := isResolved_arrival ready.sourceNotRoot m.world.backend.store target
  obtain ⟨gone, whole⟩ := Store.get_deleteAll_set canonical resolved sourceResolved
    (Store.settled_get canonical sourceResolved) ready.present
    (removedPaths (Path.resolve source m.cwd) node node.isDirectory)
  rw [store, written]
  refine ⟨gone, whole.trans (and_congr_right fun _ => ?_)⟩
  constructor
  · intro spared _ path taken
    exact spared path ((mem_removedPaths_iff_takes canonical ready path).mpr taken)
  · intro spared path listed
    cases metadata : Key.isMetadata (arrival m.world.backend.store m.cwd source target) with
    | true => exact spared metadata path ((mem_removedPaths_iff_takes canonical ready path).mp listed)
    | false => exact Store.password_not_meets ⟨resolved, notRoot, metadata⟩ _ path

/-- A file that is moved over the directory that it lies in arrives whole; a directory that repeats the names on
its way does not. -/
theorem VerbCall.moved_whole_on_overlap :
    let s (v : Value) : Store := ⟨[("shellFS", .mapping [("a", .mapping [("b", .mapping [("a", v)])])])]⟩
    let m (v : Value) : Machine := ⟨{ backend := { store := s v } }, "/"⟩
    let after (v : Value) : Store :=
      (((VerbCall.mv "/a/b/a" "/").program "alice" none).converse [] (m v)).machine.world.backend.store
    let whole (v : Value) : Prop :=
      (after v).get (Key.node (arrival (s v) "/" "/a/b/a" "/")) = (s v).get (Key.node (Path.resolve "/a/b/a" "/"))
    whole (.text "x") ∧ ¬ whole (.mapping [("b", .mapping [("a", .text "x")])]) := by
  intro s m after whole
  constructor
  · obtain ⟨-, arrives⟩ := moved_whole_iff "/a/b/a" "/" "alice" none [] (m := m (.text "x")) rfl (by decide)
      (by decide +kernel)
    exact arrives.mpr ⟨by decide +kernel, fun metadata => absurd metadata (by decide +kernel)⟩
  · obtain ⟨-, arrives⟩ := moved_whole_iff "/a/b/a" "/" "alice" none []
      (m := m (.mapping [("b", .mapping [("a", .text "x")])])) rfl (by decide) (by decide +kernel)
    exact fun same => absurd (arrives.mp same).1 (by decide +kernel)

/-- It is not so that every move that replies brings the value of its source to its destination. -/
theorem VerbCall.moved_value_lost :
    ¬ ∀ (source target identity : String) (elevation : Option Elevation) (answers : List Answer) (m : Machine),
      m.world.backend.faults = FaultSchedule.none → Value.CanonicalEntries m.world.backend.store.root →
      Replied (((VerbCall.mv source target).program identity elevation).converse answers m).result →
      let t := (((VerbCall.mv source target).program identity elevation).converse answers m).machine.world.backend.store
      t.get (Key.node (arrival m.world.backend.store m.cwd source target)) =
          m.world.backend.store.get (Key.node (Path.resolve source m.cwd)) ∧
        t.get (Key.node (Path.resolve source m.cwd)) = .null := by
  intro whole
  have moved := whole "/a/b/a" "/" "alice" none [] ⟨{ backend := { store := ⟨[("shellFS", .mapping [("a", .mapping
    [("b", .mapping [("a", .mapping [("b", .mapping [("a", .text "x")])])])])])]⟩ } }, "/"⟩ rfl (by decide)
    (by decide +kernel)
  exact absurd moved.1 (by decide +kernel)

end TreeShell
