import TreeShell.Proofs.Program.Solo

/-! # Programs that keep a property of the store

A program keeps a property of the store if every call that it can make keeps it, whatever has happened to the
store while it waited, as long as the property held. So the property survives also where the programs of several
sessions take turns at their prompts (`Keeps.run`). What a program reads from such a store may be relied on
later: `Keeps` carries a property of the result along. A program may keep each of a family of properties, such as
what stands at a place, also when others change from one of them to another while it waits.
-/

namespace TreeShell

namespace Program

variable {ι α β ρ : Type} {I : ι → Store → Prop} {Q R : α → Prop} {S : β → Prop}

/-- Whether a program keeps every property of a family, and its result has another. -/
inductive Keeps (I : ι → Store → Prop) (Q : α → Prop) : Program α → Prop
  | done {a : α} (holds : Q a) : Keeps I Q (.done a)
  | call {request : StoreCall} {k : Value → Program α} (kept : ∀ {i s}, I i s → I i (s.perform request).2)
    (next : ∀ {i s}, I i s → Keeps I Q (k (s.perform request).1)) : Keeps I Q (.call request k)
  | ask {prompt : Prompt} {k : Answer → Program α} (next : ∀ a, Keeps I Q (k a)) : Keeps I Q (.ask prompt k)
  | log {event : Event} {p : Program α} (next : Keeps I Q p) : Keeps I Q (.log event p)
  | cwd {k : String → Program α} (next : ∀ path, Keeps I Q (k path)) : Keeps I Q (.cwd k)
  | enter {path : String} {p : Program α} (next : Keeps I Q p) : Keeps I Q (.enter path p)

namespace Keeps

theorem pure {a : α} (holds : Q a) : Keeps I Q (Pure.pure a) :=
  .done holds

theorem bind {p : Program α} {f : α → Program β} (first : Keeps I Q p) (next : ∀ a, Q a → Keeps I S (f a)) :
    Keeps I S (p >>= f) := by
  induction first with
  | done holds => exact next _ holds
  | call kept _ ih => exact .call kept ih
  | ask _ ih => exact .ask ih
  | log _ ih => exact .log ih
  | cwd _ ih => exact .cwd ih
  | enter _ ih => exact .enter ih

theorem mono {p : Program α} (keeps : Keeps I Q p) (weaker : ∀ a, Q a → R a) : Keeps I R p := by
  have same := keeps.bind (S := R) (f := .done) fun a holds => .done (weaker a holds)
  rwa [bind_eq, bind_done] at same

/-- A check that may refuse, and what comes after it. -/
theorem past {p : Program (Option ρ)} {f : Option ρ → Program β} {P : Prop}
    (first : Keeps I (fun r => r = none → P) p) (refuses : ∀ r, Keeps I S (f (some r)))
    (next : P → Keeps I S (f none)) : Keeps I S (p >>= f) := by
  refine first.bind fun refusal passed => ?_
  cases refusal with
  | some refusal => exact refuses refusal
  | none => exact next (passed rfl)

theorem workingDirectory : Keeps I (fun _ => True) workingDirectory :=
  .cwd fun _ => .done trivial

theorem changeDirectory (path : String) : Keeps I (fun _ => True) (changeDirectory path) :=
  .enter (.done trivial)

theorem record (event : Event) : Keeps I (fun _ => True) (record event) :=
  .log (.done trivial)

theorem prompt (p : Prompt) : Keeps I (fun _ => True) (prompt p) :=
  .ask fun _ => .done trivial

theorem fetch {key : String} {Q : Value → Prop} (reads : ∀ {i s}, I i s → Q (s.get key)) : Keeps I Q (fetch key) :=
  .call (fun holds => holds) fun holds => .done (reads holds)

theorem write {key : String} {value : Value} (kept : ∀ {i s}, I i s → I i (s.set key value)) :
    Keeps I (fun _ => True) (write key value) :=
  .call kept fun _ => .done trivial

theorem merge {key : String} {pairs : List (String × Value)} (kept : ∀ {i s}, I i s → I i (s.update key pairs)) :
    Keeps I (fun _ => True) (merge key pairs) :=
  .call kept fun _ => .done trivial

theorem delete {key : String} (kept : ∀ {i s}, I i s → I i (s.remove key)) : Keeps I (fun _ => True) (delete key) :=
  .call kept fun _ => .done trivial

end Keeps

end Program

/-- Whether what is left of a program that has stopped keeps a property, and its result has another. -/
def Outcome.Keeps {ι α : Type} (I : ι → Store → Prop) (Q : α → Prop) : Outcome α → Prop
  | .finished a => Q a
  | .waiting _ resume => ∀ a, (resume a).Keeps I Q
  | .failed _ => True

namespace Program

variable {ι α : Type} {I : ι → Store → Prop} {Q : α → Prop} {i : ι}

/-- A program keeps a property up to where it stops, also on a store whose calls may fail, and so will the rest. -/
theorem Keeps.run {p : Program α} (keeps : Keeps I Q p) (m : Machine) (holds : I i m.world.backend.store) :
    I i (p.run m).2.world.backend.store ∧ (p.run m).1.Keeps I Q := by
  induction keeps generalizing m with
  | done result => exact ⟨holds, result⟩
  | @call request k kept _ ih =>
    rw [Program.run]
    cases fault : m.world.backend.faults m.world.backend.calls request with
    | some message =>
      rw [Backend.call_of_fault fault]
      exact ⟨holds, trivial⟩
    | none =>
      rw [Backend.call_of_no_fault fault]
      exact ih holds _ (kept holds)
  | ask next => exact ⟨holds, next⟩
  | log _ ih => exact ih _ holds
  | cwd _ ih => exact ih _ m holds
  | enter _ ih => exact ih _ holds

/-- So it does when its prompts are answered from a list. -/
theorem Keeps.converse {p : Program α} (keeps : Keeps I Q p) (answers : List Answer) (m : Machine)
    (holds : I i m.world.backend.store) : I i (p.converse answers m).machine.world.backend.store := by
  induction keeps generalizing answers m with
  | done => exact holds
  | @call request k kept _ ih =>
    rw [Program.converse]
    cases fault : m.world.backend.faults m.world.backend.calls request with
    | some message =>
      rw [Backend.call_of_fault fault]
      exact holds
    | none =>
      rw [Backend.call_of_no_fault fault]
      exact ih holds answers _ (kept holds)
  | ask _ ih => exact ih _ _ m holds
  | log _ ih => exact ih answers _ holds
  | cwd _ ih => exact ih _ answers m holds
  | enter _ ih => exact ih answers _ holds

/-- Alone on a store without faults a program keeps the property to its end. -/
theorem Keeps.play {p : Program α} (keeps : Keeps I Q p) (u : Solo) (holds : I i u.store) :
    I i (p.play u).2.store ∧ Q (p.play u).1 := by
  induction keeps generalizing u with
  | done result => exact ⟨holds, result⟩
  | call kept _ ih => exact ih holds _ (kept holds)
  | ask _ ih => exact ih _ _ holds
  | log _ ih => exact ih _ holds
  | cwd _ ih => exact ih _ u holds
  | enter _ ih => exact ih _ holds

end Program

end TreeShell
