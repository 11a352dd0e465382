import Mathlib.Data.List.Induction
import TreeShell.Proofs.Program.Solo

/-! # Series of calls

On a store without faults a series of calls runs to its end and leaves what the calls make of the store, one after the other
(`Program.runOn_forM`). What is then seen of the store is up to the last call that has a say in it (`foldl_find?`).
-/

namespace TreeShell

/-- If some steps settle what is seen of a state and the others leave it as it was, the last one of them has its way. -/
theorem foldl_find? {σ α β : Type} {step : σ → α → σ} (view : σ → β) (settles : α → Bool) (made : α → β)
    {steps : List α} (each : ∀ a ∈ steps, ∀ s, view (step s a) = if settles a then made a else view s) (s : σ) :
    view (steps.foldl step s) = (steps.reverse.find? settles).elim (view s) made := by
  induction steps using List.reverseRecOn with
  | nil => rfl
  | append_singleton before last ih =>
    have earlier := ih fun a member => each a (List.mem_append_left _ member)
    rw [List.foldl_append, List.foldl_cons, List.foldl_nil, each last (by simp), earlier, List.reverse_append,
      List.reverse_singleton, List.singleton_append, List.find?_cons]
    cases settles last <;> rfl

namespace Program

variable {α β : Type} {w : World}

/-- A program that depends on the world alone comes to what it is played to, if there are no faults. -/
theorem runOn_eq_play (p : Program α) (noFaults : w.backend.faults = FaultSchedule.none) :
    let played := p.play (Machine.solo ⟨w, "/"⟩ [])
    (p.runOn w).1 = .ok played.1 ∧ (p.runOn w).2.backend.store = played.2.store ∧
      (p.runOn w).2.backend.faults = FaultSchedule.none := by
  obtain ⟨result, store, -⟩ := p.converse_eq_play [] (m := ⟨w, "/"⟩) noFaults
  exact ⟨result, store, (p.faults_converse [] ⟨w, "/"⟩).trans noFaults⟩

/-- A program that reads one key gives what it makes of the value there. -/
theorem runOn_read {p : Program α} {key : String} {f : Value → α} (reads : p = .call (.get key) fun v => .done (f v))
    (noFaults : w.backend.faults = FaultSchedule.none) : (p.runOn w).1 = .ok (f (w.backend.store.get key)) := by
  rw [reads]
  exact (runOn_eq_play _ noFaults).1

/-- Programs that change the store are played one after the other. -/
theorem store_play_forM {program : β → Program Unit} (step : Store → β → Store)
    (each : ∀ call u, ((program call).play u).2.store = step u.store call) (calls : List β) (u : Solo) :
    ((calls.forM program).play u).2.store = calls.foldl step u.store := by
  induction calls generalizing u with
  | nil => rfl
  | cons call rest ih =>
    have unfolded : (call :: rest).forM program = program call >>= fun _ => rest.forM program := rfl
    rw [unfolded, play_bind, ih, each, List.foldl_cons]

/-- A series of calls runs to its end. -/
theorem runOn_forM {program : β → Program Unit} (step : Store → β → Store)
    (each : ∀ call u, ((program call).play u).2.store = step u.store call) (calls : List β)
    (noFaults : w.backend.faults = FaultSchedule.none) :
    ((calls.forM program).runOn w).1 = .ok () ∧
      ((calls.forM program).runOn w).2.backend.store = calls.foldl step w.backend.store ∧
      ((calls.forM program).runOn w).2.backend.faults = FaultSchedule.none := by
  obtain ⟨result, store, free⟩ := runOn_eq_play (calls.forM program) noFaults
  exact ⟨result, store.trans (store_play_forM step each calls _), free⟩

end Program

end TreeShell
