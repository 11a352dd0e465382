import TreeShell.Proofs.PasswordIntegrity
import TreeShell.Proofs.Pipeline.Turns

/-! # The lifetime of passwords

A password is meant to go with its node, and mostly does. But a copy or a move that replaces a directory keeps
the passwords of what was in it, and one that takes the last node out of a directory keeps that of the
directory. Nothing else strands a password: whatever lines have led to a store, each password in it is for a
node, or for a path that a turn has stranded (`Reachable.password_stranded`).
-/

namespace TreeShell

open Key (IsOrdinary passwordEntry)
open Path (IsResolved)
open Verb

/-- Whether every password of a store is for a path at which a node stands, or which a turn has stranded. -/
def Store.Accounted (made : List Turn) (s : Store) : Prop :=
  ∀ name, s.entry name ≠ .null → ∃ path, IsOrdinary path ∧ name = passwordEntry path ∧
    (s.get (Key.node path) ≠ .null ∨ ∃ t ∈ made, t.Strands path)

theorem Store.accounted_empty : Store.empty.Accounted [] :=
  fun _ there => absurd rfl there

/-- In such a store a password without a node was stranded. -/
theorem Store.Accounted.stranded {made : List Turn} {s : Store} {path : String} (accounted : s.Accounted made)
    (ordinary : IsOrdinary path) (outlived : s.Outlived path) : ∃ t ∈ made, t.Strands path := by
  obtain ⟨locked, absent⟩ := outlived
  rw [Store.get_password_of_resolved ordinary.1] at locked
  obtain ⟨other, otherOrdinary, entry, held⟩ := accounted _ locked
  obtain rfl := (Key.passwordEntry_eq_iff ordinary.1.exists_names otherOrdinary.1.exists_names).mp entry
  exact held.resolve_left (absurd absent)

namespace Turn

variable {t : Turn} {made : List Turn} {path : String}

/-- The node of a password that was there before stays, or the turn strands the password. -/
theorem outlived_iff (t : Turn) (sound : t.before.store.Sound) (ordinary : IsOrdinary path)
    (guards : t.before.store.Guards path) : t.after.Outlived path ↔ t.Strands path :=
  (t.call.accounts t.identity sound path ordinary guards).trans (and_iff_right guards).symm

/-- What a turn does to passwords. -/
theorem touches (t : Turn) (sound : t.before.store.Sound) : Touches t.call t.before t.outcome :=
  t.call.touches t.identity sound

/-- A password that is new or has changed is for a node. -/
theorem fresh_present (sound : t.before.store.Sound) {name : String} (there : t.after.entry name ≠ .null)
    (differs : t.after.entry name ≠ t.before.store.entry name) :
    ∃ path, IsOrdinary path ∧ name = passwordEntry path ∧ t.after.get (Key.node path) ≠ .null := by
  obtain ⟨label, -, protects, entry, -⟩ := (t.touches sound).fresh there differs
  rcases t.call.present_of_protects t.identity t.before protects with same | ⟨ordinary, present⟩
  · exact absurd (same _) differs
  · exact ⟨_, ordinary, entry, present⟩

/-- After a turn the passwords are accounted for if they were before. -/
theorem accounted (sound : t.before.store.Sound) (before : t.before.store.Accounted made) :
    t.after.Accounted (made ++ [t]) := by
  intro name there
  by_cases same : t.after.entry name = t.before.store.entry name
  · obtain ⟨path, ordinary, rfl, held⟩ := before name (same ▸ there)
    refine ⟨path, ordinary, rfl, ?_⟩
    rcases held with present | ⟨first, earlier, strands⟩
    · have password : t.before.store.get (Key.password path) ≠ .null := by
        rw [Store.get_password_of_resolved ordinary.1, ← same]
        exact there
      have still : t.after.get (Key.password path) ≠ .null := by
        rw [Store.get_password_of_resolved ordinary.1]
        exact there
      by_cases gone : t.after.get (Key.node path) = .null
      · have strands := (t.outlived_iff sound ordinary ⟨password, present⟩).mp ⟨still, gone⟩
        exact .inr ⟨t, List.mem_append_right _ (List.mem_singleton_self t), strands⟩
      · exact .inl gone
    · exact .inr ⟨first, List.mem_append_left _ earlier, strands⟩
  · obtain ⟨path, ordinary, entry, present⟩ := fresh_present sound there same
    exact ⟨path, ordinary, entry, .inl present⟩

/-- A password that is found where there was no node, without having been set, was stranded before. -/
theorem stranded_before (sound : t.before.store.Sound) (before : t.before.store.Accounted made)
    (ordinary : IsOrdinary path) (plain : t.call.protectedLabel? = none)
    (absent : t.before.store.get (Key.node path) = .null) (locked : t.after.get (Key.password path) ≠ .null) :
    ∃ first ∈ made, first.Strands path := by
  refine before.stranded ordinary ⟨?_, absent⟩
  rw [Store.get_password_of_resolved ordinary.1] at locked ⊢
  have same : t.after.entry (passwordEntry path) = t.before.store.entry (passwordEntry path) := by
    by_contra differs
    obtain ⟨label, -, protects, -⟩ := (t.touches sound).fresh locked differs
    exact absurd (plain.symm.trans protects) nofun
  rw [← same]
  exact locked

end Turn

/-- Whatever turns lead to a store, its passwords are accounted for. -/
theorem History.accounted {made : List Turn} {s : Store} (history : History made s) : s.Accounted made := by
  induction history with
  | start => exact Store.accounted_empty
  | turn before ih => exact Turn.accounted before.sound ih
  | @remember made s before identity cwd ih =>
    intro name there
    rw [Store.entry_set_cwd] at there
    obtain ⟨path, ordinary, entry, held⟩ := ih name there
    refine ⟨path, ordinary, entry, ?_⟩
    rwa [Store.get_node_set_cwd ordinary.1]

/-- Whatever lines are run without elevation, a password is for a path at which a node stands unless a turn
has stranded it. A turn that finds a node and its password strands the password exactly if it replaces a
directory by a value that lacks the node, or removes all else that was in the node; and one that finds no node
and protects nothing leaves a password there only if it was stranded before. -/
theorem Reachable.password_stranded {made : List Turn} {s : Store} (reachable : Reachable made s) :
    (∀ name, s.entry name ≠ .null → ∃ path, IsOrdinary path ∧ name = passwordEntry path ∧
      (s.get (Key.node path) ≠ .null ∨ ∃ t ∈ made, t.Strands path)) ∧
    ∀ earlier t later, made = earlier ++ t :: later → ∀ path, IsOrdinary path →
      (t.before.store.Guards path → (t.after.Outlived path ↔ t.Strands path)) ∧
      (t.call.protectedLabel? = none → t.before.store.get (Key.node path) = .null →
        t.after.get (Key.password path) ≠ .null → ∃ first ∈ earlier, first.Strands path) := by
  have history := reachable.history
  refine ⟨history.accounted, ?_⟩
  rintro earlier t later rfl path ordinary
  have before := history.before
  exact ⟨t.outlived_iff before.sound ordinary, Turn.stranded_before before.sound before.accounted ordinary⟩

/-- Lines that protect a file and then copy another over its directory. -/
def copyOverDirectory : List (String × List Answer) :=
  [("vim -s d/f", [some "pw", some "pw", some "x"]), ("echo y > a", []), ("cp a d", [])]

theorem ordinary_file : IsOrdinary "/d/f" :=
  ⟨⟨["d", "f"], by decide, by decide⟩, by decide, by decide⟩

theorem outlived_copyOverDirectory : (Shell.visits "alice" copyOverDirectory).2.Outlived "/d/f" := by
  decide +kernel

/-- The copy over the directory strands the password of the file in it. -/
theorem Reachable.password_stranded_by_copy : ∃ t ∈ (Shell.visits "alice" copyOverDirectory).1, t.Strands "/d/f" :=
  Store.Accounted.stranded (Reachable.visits "alice" copyOverDirectory).password_stranded.1 ordinary_file
    outlived_copyOverDirectory

/-- It is not so that every password in a store is for a path at which a node stands. -/
theorem Reachable.password_outlives_node :
    ¬ ∀ made s, Reachable made s → ∀ name, s.entry name ≠ .null →
      ∃ path, IsOrdinary path ∧ name = passwordEntry path ∧ s.get (Key.node path) ≠ .null := by
  intro attached
  obtain ⟨locked, absent⟩ := outlived_copyOverDirectory
  rw [Store.get_password_of_resolved ordinary_file.1] at locked
  obtain ⟨path, ordinary, entry, present⟩ := attached _ _ (Reachable.visits "alice" copyOverDirectory) _ locked
  obtain rfl := (Key.passwordEntry_eq_iff ordinary_file.1.exists_names ordinary.1.exists_names).mp entry
  exact present absent

end TreeShell
