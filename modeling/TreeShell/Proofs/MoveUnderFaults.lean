import TreeShell.Proofs.ExactMove
import TreeShell.Proofs.Program.Withstands
import TreeShell.Proofs.Verb.Plans

/-! # A move that is cut short

A move copies the value of its source, removes the source and then drops its passwords, and the store may fail at each of
these calls and at each look before them. The move makes its calls on three stores: the one it begins with, the one with
the copy, and the one without the source. Outside the metadata, and where neither path lies within the other, nothing is
lost in any of them (`Store.Unlost`), so a move that fails loses nothing (`VerbCall.failed_move_loses_nothing`).
-/

namespace TreeShell

open Key (IsOrdinary)
open Path (IsResolved isResolved_resolve)
open Program (Withstands)
open Verb

namespace Store

/-- What a move between two paths keeps while it runs: the value of the source is whole at one of the two, every entry for
a password is as it was, and the destination has what it had before or the value of the source. -/
structure Unlost (s t : Store) (source final : String) : Prop where
  whole : t.get (Key.node source) = s.get (Key.node source) ∨ t.get (Key.node final) = s.get (Key.node source)
  passwords : ∀ name, t.entry name = s.entry name
  replaced : t.get (Key.node final) = s.get (Key.node final) ∨ t.get (Key.node final) = s.get (Key.node source)

variable {s t : Store} {source final path : String}

/-- Two paths of which neither lies within the other stand apart in the tree. -/
theorem get_node_set_of_not_within (resolved : IsResolved path) (otherResolved : IsResolved final)
    (below : Path.isWithin path final = false) (above : Path.isWithin final path = false) (s : Store) (value : Value) :
    (s.set (Key.node final) value).get (Key.node path) = s.get (Key.node path) := by
  obtain ⟨segs, names, rfl⟩ := resolved.exists_names
  obtain ⟨others, otherNames, rfl⟩ := otherResolved.exists_names
  refine get_node_set_apart names otherNames ⟨?_, ?_⟩ s value
  · rwa [← Path.isWithin_ofSegments names otherNames, Bool.not_eq_true]
  · rwa [← Path.isWithin_ofSegments otherNames names, Bool.not_eq_true]

theorem Unlost.refl (s : Store) (source final : String) : s.Unlost s source final :=
  ⟨.inl rfl, fun _ => rfl, .inl rfl⟩

section

variable (arrives : IsOrdinary final) (settled : (s.get (Key.node source)).Settled)

include arrives settled

theorem get_final_of_copied :
    (s.set (Key.node final) (s.get (Key.node source))).get (Key.node final) = s.get (Key.node source) := by
  rw [get_node_set arrives.1, settled.prune_eq, settled.settle_eq]

/-- With the copy, nothing is lost. -/
theorem Unlost.copied : s.Unlost (s.set (Key.node final) (s.get (Key.node source))) source final :=
  have arrived := get_final_of_copied arrives settled
  ⟨.inr arrived, fun _ => entry_set_node arrives s _, .inr arrived⟩

/-- The removal of the source leaves the copy, unless one lies within the other. -/
theorem Unlost.removed (leaves : IsOrdinary source) (below : Path.isWithin final source = false)
    (above : Path.isWithin source final = false) :
    s.Unlost ((s.set (Key.node final) (s.get (Key.node source))).remove (Key.node source)) source final := by
  have arrived := (get_node_set_of_not_within arrives.1 leaves.1 below above _ .null).trans
    (get_final_of_copied arrives settled)
  refine ⟨.inr arrived, fun name => ?_, .inr arrived⟩
  rw [entry_remove_node leaves, entry_set_node arrives]

end

end Store

namespace Verb

/-- Whatever `mv` has looked at, it writes the value of its source at its destination, and then removes. -/
theorem mv_withstands {s : Store} {cwd source target : String} (elevation : Option Elevation)
    (canonical : Value.CanonicalEntries s.root) (leaves : Key.isMetadata (Path.resolve source cwd) = false)
    (arrives : Key.isMetadata (arrival s cwd source target) = false)
    (above : Path.isWithin (Path.resolve source cwd) (arrival s cwd source target) = false) :
    Withstands (fun t => s.Unlost t (Path.resolve source cwd) (arrival s cwd source target)) cwd (fun _ _ => True) s
      (mv source target elevation) := by
  have begun := Store.Unlost.refl s (Path.resolve source cwd) (arrival s cwd source target)
  have sourceResolved := isResolved_resolve source cwd
  have settled := Store.settled_get canonical sourceResolved
  unfold mv
  split
  · exact .done trivial
  · refine .looks (locate_looks source) begun ?_
    rintro _ rfl
    refine .looks (locate_looks target) begun ?_
    rintro _ rfl
    split
    · exact .done trivial
    · next sourceNotRoot =>
      obtain ⟨resolved, notRoot⟩ := isResolved_arrival sourceNotRoot s target
      refine .call begun ?_
      dsimp only [Store.perform, Program.bind]
      split
      · exact .done trivial
      · next node found =>
        split
        · exact .done trivial
        · refine .looks (gate_looks source _ _) begun fun passed _ => ?_
          cases passed with
          | some refusal => exact .done trivial
          | none =>
            dsimp only
            rw [load_eq]
            refine .call begun ?_
            dsimp only [Store.perform, Program.bind]
            rw [← Store.node?, ← arrival]
            split
            · exact .done trivial
            · next below =>
              split
              · exact .done trivial
              · refine .looks (belowFile_looks target _) begun fun passed _ => ?_
                cases passed with
                | some refusal => exact .done trivial
                | none =>
                  have destination : IsOrdinary (arrival s cwd source target) := ⟨resolved, notRoot, arrives⟩
                  have origin : IsOrdinary (Path.resolve source cwd) := ⟨sourceResolved, sourceNotRoot, leaves⟩
                  refine .call begun (.call (.copied destination settled) (.call ?_ (.log (.done trivial))))
                  exact .removed destination settled origin (Bool.eq_false_iff.mpr below) above

end Verb

/-- A move that fails loses nothing. On a canonical store with any faults, where the source and its destination lie outside
the metadata and neither within the other, the value of the source is then whole at one of the two, every entry for a
password is as it was, and at the destination is what was there before or the value of the source. -/
theorem VerbCall.failed_move_loses_nothing (source target identity : String) (elevation : Option Elevation)
    (answers : List Answer) {m : Machine} {error : StoreError}
    (canonical : Value.CanonicalEntries m.world.backend.store.root)
    (leaves : Key.isMetadata (Path.resolve source m.cwd) = false)
    (arrives : Key.isMetadata (arrival m.world.backend.store m.cwd source target) = false)
    (above : Path.isWithin (Path.resolve source m.cwd) (arrival m.world.backend.store m.cwd source target) = false)
    (failed : (((VerbCall.mv source target).program identity elevation).converse answers m).result = .error error) :
    m.world.backend.store.Unlost
      (((VerbCall.mv source target).program identity elevation).converse answers m).machine.world.backend.store
      (Path.resolve source m.cwd) (arrival m.world.backend.store m.cwd source target) :=
  (mv_withstands elevation canonical leaves arrives above).converse answers failed

/-- A protected file is at both ends of a move when the store fails to remove it, and at the destination alone, with the
password still set, when the store fails to drop the password. -/
theorem VerbCall.failed_move_loses_nothing_on_protected_file :
    let s : Store := (Store.empty.set (Key.node "/a") (.text "x")).set (Key.password "/a") (.text "pw")
    let m (call : Nat) : Machine :=
      ⟨{ backend := { store := s, faults := fun calls _ => if calls = call then some "down" else none } }, "/"⟩
    let after (call : Nat) : Store :=
      (((VerbCall.mv "a" "b").program "alice" none).converse [some "pw"] (m call)).machine.world.backend.store
    (s.Unlost (after 5) "/a" "/b" ∧ (after 5).get (Key.node "/a") = .text "x" ∧
        (after 5).get (Key.node "/b") = .text "x") ∧
      s.Unlost (after 6) "/a" "/b" ∧ (after 6).get (Key.node "/a") = .null ∧
        (after 6).get (Key.password "/a") = .text "pw" := by
  intro s m after
  have canonical : Value.CanonicalEntries s.root := by decide +kernel
  have origin : Path.resolve "a" "/" = "/a" := by decide +kernel
  have destination : arrival s "/" "a" "b" = "/b" := by decide +kernel
  have lost (call : Nat) (error : StoreError)
      (failed : (((VerbCall.mv "a" "b").program "alice" none).converse [some "pw"] (m call)).result = .error error) :
      s.Unlost (after call) "/a" "/b" := by
    have unlost := failed_move_loses_nothing "a" "b" "alice" none [some "pw"] (m := m call) canonical
      (origin ▸ by decide +kernel) (destination ▸ by decide +kernel) (origin ▸ destination ▸ by decide +kernel) failed
    exact destination ▸ origin ▸ unlost
  exact ⟨⟨lost 5 ⟨"down", Key.node "/a"⟩ (by decide +kernel), by decide +kernel, by decide +kernel⟩,
    lost 6 ⟨"down", Key.passwords⟩ (by decide +kernel), by decide +kernel, by decide +kernel⟩

end TreeShell
