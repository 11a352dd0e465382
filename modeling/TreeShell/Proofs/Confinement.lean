import TreeShell.Proofs.Verb.Leaves

/-! # No collateral damage

A verb that works on the file tree, with any arguments and answers, elevated or not, changes no leaf of the
store but those of the nodes that it writes or removes and of the passwords that go with them. In
particular it never turns a file above a written path into a directory: where there is such a file, the
verb refuses and changes nothing (`VerbCall.leaves_confined`).
-/

namespace TreeShell

open Path (IsResolved)
open Verb

/-- A call on a store of the right shape keeps every leaf that it does not reach and adds none, and a file
above a path that it would write or remove stops it. -/
theorem VerbCall.leaves_confined (call : VerbCall) (identity : String) (elevation : Option Elevation)
    (answers : List Answer) {m : Machine} (noFaults : m.world.backend.faults = FaultSchedule.none)
    (canonical : Value.CanonicalEntries m.world.backend.store.root) (shaped : m.world.backend.store.Shaped)
    (stays : ∀ label, call ≠ .cd label) :
    let d := (call.program identity elevation).converse answers m
    let s := m.world.backend.store
    let t := d.machine.world.backend.store
    (∀ place, ¬ call.Reaches s m.cwd place → t.leafAt place = s.leafAt place) ∧
      ∀ path ∈ call.written s m.cwd, ∀ ancestor content, IsResolved ancestor →
        Path.isWithin path ancestor = true → ancestor ≠ path → s.node? ancestor = some (.file content) →
        ¬ Replied d.result ∧ t = s ∧ d.machine.cwd = m.cwd ∧ d.machine.world.events = m.world.events := by
  obtain ⟨result, store, cwd, events, -⟩ := (call.program identity elevation).converse_eq_play answers noFaults
  have confined : Confined call (m.solo answers) _ := call.confined identity elevation canonical shaped stays
  dsimp only
  rw [result, store, cwd, events]
  cases confined with
  | refused refused =>
    obtain ⟨⟨refusal, refusing⟩, asks⟩ := refused
    refine ⟨fun place _ => by rw [asks.store]; rfl, fun _ _ _ _ _ _ _ _ => ⟨?_, asks.store, asks.cwd, asks.events⟩⟩
    rintro ⟨reply, replied⟩
    cases refusing.symm.trans (Except.ok.inj replied)
  | within opens kept =>
    refine ⟨kept, fun path writes ancestor content resolved within proper file => ?_⟩
    obtain ⟨pathResolved, isOpen⟩ := opens path writes
    exact absurd file (isOpen.not_file pathResolved resolved within proper content)

/-- A move leaves a neighbour alone, and a copy to below a file comes to nothing. -/
theorem VerbCall.leaves_confined_on_move :
    let s : Store := ⟨[("shellFS", .mapping [("a", .text "x"), ("d", .mapping [("b", .text "y")]),
      ("__PASSWORDS__", .mapping [("a", .text "one"), (Key.passwordEntry "/d/b", .text "two")])])]⟩
    let m : Machine := ⟨{ backend := { store := s } }, "/"⟩
    let after (call : VerbCall) : Store :=
      ((call.program "alice" none).converse [] m).machine.world.backend.store
    (after (.mv "/d" "/e")).leafAt ["shellFS", "a"] = some (.text "x") ∧ after (.cp "/d" "/a/c") = s := by
  intro s m after
  have canonical : Value.CanonicalEntries s.root := by decide
  have shaped : s.Shaped := by decide +kernel
  constructor
  · obtain ⟨kept, -⟩ := (VerbCall.mv "/d" "/e").leaves_confined "alice" none [] (m := m) rfl canonical shaped (by simp)
    refine (kept ["shellFS", "a"] ?_).trans (by decide)
    have apart : ∀ path ∈ (VerbCall.mv "/d" "/e").written s "/", ¬ Key.components (Key.node path) <+: ["shellFS", "a"] := by
      decide +kernel
    rintro (⟨path, writes, below⟩ | ⟨label, protects, -⟩ | ⟨path, -, below⟩)
    · exact apart path writes below
    · cases protects
    · rw [Key.password, Key.components_append, Key.components_passwords] at below
      exact absurd ((List.prefix_append ..).trans below) (by decide)
  · obtain ⟨-, stops⟩ := (VerbCall.cp "/d" "/a/c").leaves_confined "alice" none [] (m := m) rfl canonical shaped (by simp)
    have resolved : IsResolved "/a" := ⟨["a"], by decide, by decide⟩
    exact (stops "/a/c" (by decide +kernel) "/a" "x" resolved (by decide) (by decide) (by decide +kernel)).2.1

end TreeShell
