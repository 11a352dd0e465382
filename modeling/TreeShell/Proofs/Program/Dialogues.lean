import TreeShell.Proofs.Program.Solo

/-! # The dialogue of a sequence

The dialogue of a sequence is the one of its first part, and then the one of the rest with the answers that are left
(`Program.converse_bind`). A dialogue that comes to a result has met no failing call, so it went as its program plays
(`Program.play_of_converse`).
-/

namespace TreeShell

variable {α β : Type}

/-- A dialogue that goes on, with the answers that it has left over. -/
def Dialogue.andThen (d : Dialogue α) (answers : List Answer) (next : α → Program β) : Dialogue β :=
  match d.result with
  | .error error => ⟨d.prompts, .error error, d.machine⟩
  | .ok a =>
    let later := (next a).converse (answers.drop d.prompts.length) d.machine
    ⟨d.prompts ++ later.prompts, later.result, later.machine⟩

namespace Program

theorem converse_bind (p : Program α) (f : α → Program β) (answers : List Answer) (m : Machine) :
    (p >>= f).converse answers m = (p.converse answers m).andThen answers f := by
  induction p generalizing answers m with
  | done a => rfl
  | call request next ih =>
    rw [bind_eq, bind, converse, converse]
    rcases m.world.backend.call request with ⟨error | v, backend⟩
    · rfl
    · exact ih v answers _
  | ask prompt next ih =>
    rw [bind_eq, bind, converse, converse, ← bind_eq, ih, Dialogue.andThen, Dialogue.andThen]
    dsimp only
    generalize (next answers.head?.join).converse answers.tail m = d
    cases d.result with
    | error error => rfl
    | ok a =>
      dsimp only
      rw [List.length_cons, List.drop_tail]
      rfl
  | log event next ih => exact ih answers _
  | cwd next ih => exact ih _ answers m
  | enter path next ih => exact ih answers _

/-- What was logged before makes no difference to a dialogue. -/
theorem exists_converse (p : Program α) (answers : List Answer) (backend : Backend) (cwd : String) :
    ∃ prompts result backend' cwd' logged, ∀ events,
      p.converse answers ⟨⟨backend, events⟩, cwd⟩ = ⟨prompts, result, ⟨⟨backend', events ++ logged⟩, cwd'⟩⟩ := by
  induction p generalizing answers backend cwd with
  | done a => exact ⟨[], .ok a, backend, cwd, [], fun events => by rw [converse, List.append_nil]⟩
  | call request next ih =>
    cases called : backend.call request with
    | mk result backend' =>
      cases result with
      | error error =>
        exact ⟨[], .error error, backend', cwd, [], fun events => by rw [converse, called, List.append_nil]⟩
      | ok v =>
        obtain ⟨prompts, result, backend'', cwd', logged, goes⟩ := ih v answers backend' cwd
        exact ⟨prompts, result, backend'', cwd', logged, fun events => by rw [converse, called]; exact goes events⟩
  | ask prompt next ih =>
    obtain ⟨prompts, result, backend', cwd', logged, goes⟩ := ih answers.head?.join answers.tail backend cwd
    exact ⟨prompt :: prompts, result, backend', cwd', logged, fun events => by rw [converse, goes events]⟩
  | log event next ih =>
    obtain ⟨prompts, result, backend', cwd', logged, goes⟩ := ih answers backend cwd
    refine ⟨prompts, result, backend', cwd', event :: logged, fun events => ?_⟩
    rw [converse, List.append_cons]
    exact goes (events ++ [event])
  | cwd next ih => exact ih cwd answers backend cwd
  | enter path next ih => exact ih answers backend path

/-- A dialogue that comes to a result went as its program plays, also where other calls on the store would fail. -/
theorem play_of_converse {p : Program α} {answers : List Answer} {m : Machine} {a : α}
    (ended : (p.converse answers m).result = .ok a) (before : List (Prompt × Answer)) :
    let d := p.converse answers m
    let r := p.play { m.solo answers with asked := before }
    r.1 = a ∧ d.machine.world.backend.store = r.2.store ∧ d.machine.cwd = r.2.cwd ∧ d.machine.world.events = r.2.events := by
  induction p generalizing answers m before with
  | done b => exact ⟨Except.ok.inj ended, rfl, rfl, rfl⟩
  | call request next ih =>
    rw [converse] at ended ⊢
    cases fault : m.world.backend.faults m.world.backend.calls request with
    | some message =>
      rw [Backend.call_of_fault fault] at ended
      cases ended
    | none =>
      rw [Backend.call_of_no_fault fault] at ended ⊢
      exact ih _ ended before
  | ask prompt next ih => exact ih _ ended _
  | log event next ih => exact ih ended before
  | cwd next ih => exact ih _ ended before
  | enter path next ih => exact ih ended before

end Program

end TreeShell
