import TreeShell.Proofs.Program.Plans

/-! # Programs whose calls may fail

A program that runs alone can be stopped at any of its calls, and the store is then as it was when that call was made. So
what a program leaves when it fails is settled by the stores on which it makes its calls. `Program.Withstands` says of a
program that all of these have a property; it is shown part by part, and then the property holds of whatever the program
leaves when it fails, at whichever call that is (`Withstands.converse`).
-/

namespace TreeShell.Program

variable {α β : Type} {F : Store → Prop} {cwd : String} {Q : α → Store → Prop} {s : Store}

/-- Whether a program makes all its calls on stores with a property when it runs alone from a store and a working directory,
whatever it is answered, and its result and the store at its end have another. It enters no directory. -/
inductive Withstands (F : Store → Prop) (cwd : String) (Q : α → Store → Prop) : Store → Program α → Prop
  | done {s : Store} {a : α} (holds : Q a s) : Withstands F cwd Q s (.done a)
  | call {s : Store} {request : StoreCall} {k : Value → Program α} (here : F s)
    (next : Withstands F cwd Q (s.perform request).2 (k (s.perform request).1)) : Withstands F cwd Q s (.call request k)
  | ask {s : Store} {prompt : Prompt} {k : Answer → Program α} (next : ∀ a, Withstands F cwd Q s (k a)) :
    Withstands F cwd Q s (.ask prompt k)
  | log {s : Store} {event : Event} {p : Program α} (next : Withstands F cwd Q s p) : Withstands F cwd Q s (.log event p)
  | cwd {s : Store} {k : String → Program α} (next : Withstands F cwd Q s (k cwd)) : Withstands F cwd Q s (.cwd k)

namespace Withstands

/-- A program that only looks leaves the store as it is, so it withstands what its beginning does. -/
theorem looks {R : α → Prop} {S : β → Store → Prop} {p : Program α} {f : α → Program β} (only : Only Act.Looks cwd R p)
    (here : F s) (next : ∀ a, R a → Withstands F cwd S s (f a)) : Withstands F cwd S s (p >>= f) := by
  induction only with
  | done holds => exact next _ holds
  | @call request k plain _ ih =>
    cases request with
    | get key => exact .call here (ih _)
    | _ => exact (plain .null).elim
  | ask _ _ ih => exact .ask ih
  | log plain => exact plain.elim
  | cwd _ ih => exact .cwd ih

/-- A program that fails leaves a store on which it makes one of its calls. -/
theorem converse {p : Program α} {m : Machine} (withstands : Withstands F m.cwd Q m.world.backend.store p)
    (answers : List Answer) {error : StoreError} (failed : (p.converse answers m).result = .error error) :
    F (p.converse answers m).machine.world.backend.store := by
  generalize stored : m.world.backend.store = s, entered : m.cwd = cwd at withstands
  induction withstands generalizing answers m with
  | done => cases failed
  | @call s request k here _ ih =>
    subst stored
    rw [Program.converse] at failed ⊢
    cases fault : m.world.backend.faults m.world.backend.calls request with
    | some message =>
      rw [Backend.call_of_fault fault]
      exact here
    | none =>
      rw [Backend.call_of_no_fault fault] at failed ⊢
      exact ih answers failed rfl entered
  | ask _ ih => exact ih _ _ failed stored entered
  | log _ ih => exact ih answers failed stored entered
  | cwd _ ih =>
    subst entered
    exact ih answers failed stored rfl

end Withstands

end TreeShell.Program
