import TreeShell.Proofs.Program.Acts

/-! # The calls of a run

A run makes calls on the store until it ends, waits, or meets one that fails. `Program.calls` lists them with the one that
fails, so that a backend alone tells which of them that is: the backend after a run is the one after its calls, and the
error with which a run stops is the only error among them (`Program.run_calls`).
-/

namespace TreeShell

namespace Backend

/-- A backend after some calls, those that fail included. -/
def after (b : Backend) (calls : List StoreCall) : Backend :=
  calls.foldl (fun b request => (b.call request).2) b

/-- The errors of those among some calls that fail. -/
def errors (b : Backend) : List StoreCall → List StoreError
  | [] => []
  | request :: rest =>
    match b.call request with
    | (.ok _, next) => next.errors rest
    | (.error error, next) => error :: next.errors rest

theorem after_append (b : Backend) (calls later : List StoreCall) :
    b.after (calls ++ later) = (b.after calls).after later :=
  List.foldl_append

theorem errors_append (b : Backend) (calls later : List StoreCall) :
    b.errors (calls ++ later) = b.errors calls ++ (b.after calls).errors later := by
  induction calls generalizing b with
  | nil => rfl
  | cons request rest ih =>
    rw [List.cons_append, errors, errors]
    change _ = _ ++ ((b.call request).2.after rest).errors later
    rcases b.call request with ⟨_ | _, next⟩
    · exact congrArg (List.cons _) (ih next)
    · exact ih next

end Backend

/-- The error with which a program stopped, if a call failed it. -/
def Outcome.error? {α : Type} : Outcome α → Option StoreError
  | .failed error => some error
  | _ => none

namespace Program

variable {α : Type}

/-- The calls that a run makes until the program ends, waits or meets a failing one, which is the last. -/
def calls : Program α → Machine → List StoreCall
  | .done _, _ => []
  | .call request next, m =>
    request ::
      match m.world.backend.call request with
      | (.ok v, backend) => (next v).calls { m with world := { m.world with backend := backend } }
      | (.error _, _) => []
  | .ask _ _, _ => []
  | .log event next, m => next.calls { m with world := m.world.record event }
  | .cwd next, m => (next m.cwd).calls m
  | .enter path next, m => next.calls { m with cwd := path }

/-- A run leaves the backend that its calls leave, and stops at the only one of them that fails. -/
theorem run_calls (p : Program α) (m : Machine) :
    (p.run m).2.world.backend = m.world.backend.after (p.calls m) ∧
      m.world.backend.errors (p.calls m) = (p.run m).1.error?.toList := by
  induction p generalizing m with
  | done a => exact ⟨rfl, rfl⟩
  | call request next ih =>
    rw [run, calls, Backend.errors, Backend.after, List.foldl_cons]
    rcases m.world.backend.call request with ⟨error | v, backend⟩
    · exact ⟨rfl, rfl⟩
    · exact ih v { m with world := { m.world with backend := backend } }
  | ask prompt next ih => exact ⟨rfl, rfl⟩
  | log event next ih => exact ih { m with world := m.world.record event }
  | cwd next ih => exact ih m.cwd m
  | enter path next ih => exact ih { m with cwd := path }

/-- A program that needs no answer comes to what its run comes to. -/
theorem converse_of_run (p : Program α) (answers : List Answer) (m : Machine) :
    (∀ a, (p.run m).1 = .finished a → p.converse answers m = ⟨[], .ok a, (p.run m).2⟩) ∧
      ∀ error, (p.run m).1 = .failed error → p.converse answers m = ⟨[], .error error, (p.run m).2⟩ := by
  induction p generalizing m with
  | done a =>
    constructor
    · rintro _ ⟨⟩
      rfl
    · rintro _ ⟨⟩
  | call request next ih =>
    rw [run, converse]
    rcases m.world.backend.call request with ⟨error | v, backend⟩
    · constructor
      · rintro _ ⟨⟩
      · rintro _ ⟨⟩
        rfl
    · exact ih v { m with world := { m.world with backend := backend } }
  | ask prompt next ih => constructor <;> rintro _ ⟨⟩
  | log event next ih => exact ih { m with world := m.world.record event }
  | cwd next ih => exact ih m.cwd m
  | enter path next ih => exact ih { m with cwd := path }

end Program

end TreeShell
