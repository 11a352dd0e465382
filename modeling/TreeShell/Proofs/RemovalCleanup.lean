import TreeShell.Proofs.Verb.Passwords

/-! # What goes with a removed node

A removal that replies, by `rm` or by a move that leaves metadata alone, takes the node and the password entries
of its path and of every path below at which a node stood, also where a name is one that no path resolves to.
Each other entry stays, among them those of the directories above, of the root and of siblings with a longer name
(`VerbCall.removal_cleans_up`).
-/

namespace TreeShell

open Key (IsOrdinary passwordEntry)
open Path (IsName IsResolved isResolved_resolve ofSegments)
open Verb

namespace Store

/-- Whether an entry of the passwords is that of a removed path or of a node below it. -/
def EntryOf (s : Store) (removed name : String) : Prop :=
  ∃ segs, (∀ n ∈ segs, IsName n) ∧ s.GoesWith (ofSegments segs) removed ∧ passwordEntry (ofSegments segs) = name

variable {s : Store} {removed path : String}

/-- The entry of a resolved path goes exactly if the path does. -/
theorem entryOf_passwordEntry (resolved : IsResolved path) :
    s.EntryOf removed (passwordEntry path) ↔ s.GoesWith path removed := by
  obtain ⟨segs, names, rfl⟩ := resolved.exists_names
  constructor
  · rintro ⟨others, otherNames, goes, same⟩
    rw [Key.passwordEntry_inj otherNames names] at same
    exact same ▸ goes
  · exact fun goes => ⟨segs, names, goes, rfl⟩

/-- The entries of the paths removed along with a node are those that go with it. -/
theorem Sound.exists_mem_removedPaths (sound : s.Sound) {node : Node} (ordinary : IsOrdinary removed)
    (found : Node.ofValue? (s.get (Key.node removed)) = some node) (name : String) :
    (∃ p ∈ removedPaths removed node true, passwordEntry p = name) ↔ s.EntryOf removed name := by
  constructor
  · rintro ⟨p, member, same⟩
    obtain ⟨segs, names, rfl⟩ := sound.names_removedPaths ordinary found p member
    exact ⟨segs, names, (sound.mem_removedPaths_ofSegments ordinary found names).mp member, same⟩
  · rintro ⟨segs, names, goes, same⟩
    exact ⟨_, (sound.mem_removedPaths_ofSegments ordinary found names).mpr goes, same⟩

/-- Whether a store is what is left of another when a node is removed with the passwords that go with it. -/
structure CleanedUp (s t : Store) (removed : String) : Prop where
  gone : t.get (Key.node removed) = .null
  dropped : ∀ name, s.EntryOf removed name → t.entry name = .null
  kept : ∀ name, ¬ s.EntryOf removed name → t.entry name = s.entry name

/-- The entries that a removal takes are those that go with the removed path. -/
theorem CleanedUp.entry_eq_null_iff {t : Store} (clean : s.CleanedUp t removed) {name : String}
    (there : s.entry name ≠ .null) : t.entry name = .null ↔ s.EntryOf removed name := by
  refine ⟨fun gone => Classical.byContradiction fun stays => there ?_, clean.dropped name⟩
  rw [← clean.kept name stays]
  exact gone

/-- A removal leaves the passwords of all paths that are not within the removed one. -/
theorem CleanedUp.get_password {t : Store} (clean : s.CleanedUp t removed) (resolved : IsResolved path)
    (proper : IsResolved removed) (outside : Path.isWithin path removed = false) :
    t.get (Key.password path) = s.get (Key.password path) := by
  rw [get_password_of_resolved resolved, get_password_of_resolved resolved]
  refine clean.kept _ fun goes => ?_
  rcases (entryOf_passwordEntry resolved).mp goes with rfl | ⟨within, -⟩
  · rw [proper.isWithin_self] at outside
    cases outside
  · rw [within] at outside
    cases outside

end Store

namespace Verb

variable {u : Solo} {path : String} {node : Node} {recursive : Bool}

/-- Removing a node cleans up after it, on a store with the passwords of a sound one. -/
theorem cleanedUp_removed {s : Store} (sound : s.Sound) (ordinary : IsOrdinary path)
    (found : Node.ofValue? (s.get (Key.node path)) = some node) (whole : node.isDirectory = true → recursive = true)
    (reason : Option ElevationReason) (same : ∀ name, u.store.entry name = s.entry name) :
    s.CleanedUp (removed u path node recursive reason).store path := by
  have entries (name : String) : (removed u path node recursive reason).store.entry name =
      if ∃ p ∈ removedPaths path node true, passwordEntry p = name then .null else s.entry name := by
    rw [entry_removed sound ordinary found whole, same]
  refine ⟨?_, fun name goes => ?_, fun name stays => ?_⟩
  · rw [removed, Solo.store_record, Solo.store_perform_update, Store.get_node_update_passwords ordinary,
      Solo.store_perform_remove]
    exact Store.get_node_remove_of_isWithin ordinary.1 ordinary.1 ordinary.1.isWithin_self u.store
  · rw [entries, if_pos ((sound.exists_mem_removedPaths ordinary found name).mpr goes)]
  · rw [entries, if_neg (mt (sound.exists_mem_removedPaths ordinary found name).mp stays)]

/-- `rm` refuses, or cleans up after its operand, which is a file unless a directory was allowed. -/
theorem rm_cleansUp (sound : u.store.Sound) (args : List String) (elevation : Option Elevation) :
    Refused u ((rm args elevation).play u) ∨
      ((args.contains "-r" = false → ∃ content, u.store.node? (Path.resolve (removalLabel args) u.cwd) =
          some (.file content)) ∧
        u.store.CleanedUp ((rm args elevation).play u).2.store (Path.resolve (removalLabel args) u.cwd)) := by
  rcases rm_cases args elevation u with refused | ⟨v, node, ready, played⟩
  · exact .inl refused
  · have ordinary : IsOrdinary (Path.resolve (removalLabel args) u.cwd) :=
      ⟨isResolved_resolve .., ready.notRoot, ready.outside⟩
    have found := ready.found
    rw [Store.node?, loaded_of_ne_root ready.notRoot] at found
    have whole (directory : node.isDirectory = true) : args.contains "-r" = true :=
      (ready.whole directory).resolve_right (sound.names_ne_nil ordinary.1 found directory)
    refine .inr ⟨fun plain => ?_, ?_⟩
    · rw [ready.found]
      cases node with
      | file content => exact ⟨content, rfl⟩
      | directory children =>
        rw [whole rfl] at plain
        cases plain
    · rw [played]
      exact cleanedUp_removed sound ordinary found whole _ fun name => by rw [ready.asks.store]

/-- `mv` refuses, or cleans up after its source if it leaves metadata alone. -/
theorem mv_cleansUp (sound : u.store.Sound) {source target : String} (elevation : Option Elevation)
    (sourceOutside : Key.isMetadata (Path.resolve source u.cwd) = false)
    (arrivalOutside : Key.isMetadata (arrival u.store u.cwd source target) = false) :
    Refused u ((mv source target elevation).play u) ∨
      u.store.CleanedUp ((mv source target elevation).play u).2.store (Path.resolve source u.cwd) := by
  rcases mv_cases source target elevation u with refused | ⟨v, node, ready, played⟩
  · exact .inl refused
  · have ordinary : IsOrdinary (Path.resolve source u.cwd) :=
      ⟨isResolved_resolve .., ready.sourceNotRoot, sourceOutside⟩
    obtain ⟨resolved, notRoot⟩ := isResolved_arrival ready.sourceNotRoot u.store target
    rw [played]
    refine .inr (cleanedUp_removed sound ordinary ready.found id _ fun name => ?_)
    rw [Solo.store_perform_set, Store.entry_set_node ⟨resolved, notRoot, arrivalOutside⟩, ready.asks.store]

end Verb

/-- A call of `rm`, or of `mv` outside the metadata, that replies on a sound store: without `-r` it has removed a
file; nothing stands at the removed path any more; the entries of the passwords that it has taken are those of the
path and of the nodes below it; and it has left every other entry, so the password of each path that is not within
the removed one. -/
theorem VerbCall.removal_cleans_up (call : VerbCall) (identity : String) (elevation : Option Elevation)
    (answers : List Answer) {m : Machine} (noFaults : m.world.backend.faults = FaultSchedule.none)
    (sound : m.world.backend.store.Sound) {label : String} (removes : call.removedLabel? = some label)
    (outside : ∀ source target, call = .mv source target → Key.isMetadata (Path.resolve source m.cwd) = false ∧
      Key.isMetadata (arrival m.world.backend.store m.cwd source target) = false)
    (replied : Replied ((call.program identity elevation).converse answers m).result) :
    let s := m.world.backend.store
    let t := ((call.program identity elevation).converse answers m).machine.world.backend.store
    let path := Path.resolve label m.cwd
    (∀ args, call = .rm args → args.contains "-r" = false → ∃ content, s.node? path = some (.file content)) ∧
      t.get (Key.node path) = .null ∧
      (∀ name, s.entry name ≠ .null → (t.entry name = .null ↔ s.EntryOf path name)) ∧
      (∀ name, ¬ s.EntryOf path name → t.entry name = s.entry name) ∧
      ∀ other, IsResolved other → Path.isWithin other path = false →
        t.get (Key.password other) = s.get (Key.password other) := by
  obtain ⟨result, store, -, -, -⟩ := (call.program identity elevation).converse_eq_play answers noFaults
  dsimp only
  rw [store]
  rw [result] at replied
  obtain ⟨reply, replies⟩ := replied
  have notRefused : ¬ Refused (m.solo answers) ((call.program identity elevation).play (m.solo answers)) :=
    fun refused => refused.not_replied reply (Except.ok.inj replies)
  obtain ⟨plain, clean⟩ : (∀ args, call = .rm args → args.contains "-r" = false →
      ∃ content, m.world.backend.store.node? (Path.resolve label m.cwd) = some (.file content)) ∧
      m.world.backend.store.CleanedUp ((call.program identity elevation).play (m.solo answers)).2.store
        (Path.resolve label m.cwd) := by
    cases call with
    | rm args =>
      obtain rfl := Option.some.inj removes
      obtain ⟨plain, clean⟩ := (rm_cleansUp (u := m.solo answers) sound args elevation).resolve_left notRefused
      refine ⟨fun others same => ?_, clean⟩
      cases same
      exact plain
    | mv source target =>
      obtain rfl := Option.some.inj removes
      obtain ⟨sourceOutside, arrivalOutside⟩ := outside source target rfl
      have clean := (mv_cleansUp (u := m.solo answers) sound elevation sourceOutside arrivalOutside).resolve_left notRefused
      exact ⟨fun args same => absurd same nofun, clean⟩
    | _ => exact absurd removes nofun
  refine ⟨plain, clean.gone, fun name there => clean.entry_eq_null_iff there, clean.kept, fun other resolved apart => ?_⟩
  exact clean.get_password resolved (isResolved_resolve label m.cwd) apart

/-- Removing a directory takes its password and that of a file in it, and leaves those of a sibling with a longer
name and of the root. -/
theorem VerbCall.removal_cleans_up_directory :
    let s : Store := ⟨[("shellFS", .mapping [("a", .mapping [("f", .text "x")]), ("ab", .text "y"),
      ("__PASSWORDS__", .mapping [("a", .text "one"), (passwordEntry "/a/f", .text "two"), ("ab", .text "three"),
        (Key.rootPassword, .text "four")])])]⟩
    let m : Machine := ⟨{ backend := { store := s } }, "/"⟩
    let t := (((VerbCall.rm ["-r", "a"]).program "alice" none).converse [some "one"] m).machine.world.backend.store
    t.get (Key.node "/a") = .null ∧ t.entry (passwordEntry "/a/f") = .null ∧
      t.get (Key.password "/ab") = .text "three" ∧ t.get (Key.password "/") = .text "four" := by
  intro s m t
  have removes : (VerbCall.rm ["-r", "a"]).removedLabel? = some "a" := by decide
  obtain ⟨-, gone, taken, -, stays⟩ := (VerbCall.rm ["-r", "a"]).removal_cleans_up "alice" none [some "one"] (m := m) rfl
    (by decide +kernel) removes (fun _ _ same => absurd same nofun) (by decide +kernel)
  have path : Path.resolve "a" m.cwd = "/a" := by decide +kernel
  rw [path] at gone taken stays
  have goes : s.EntryOf "/a" (passwordEntry "/a/f") := ⟨["a", "f"], by decide, by decide +kernel, rfl⟩
  refine ⟨gone, (taken _ (by decide +kernel)).mpr goes, ?_, ?_⟩
  · exact (stays "/ab" ⟨["ab"], by decide, by decide⟩ (by decide +kernel)).trans (by decide +kernel)
  · exact (stays "/" ⟨[], by decide, by decide⟩ (by decide +kernel)).trans (by decide +kernel)

end TreeShell
