import TreeShell.Proofs.Shell.Requests

/-! # Answering a shell until it waits no more

Whoever runs a line to its end resumes it for as long as it waits: with the next of the answers, and without one when these
are used up. `ShellResult.Settles` says through which prompts this leads and to which result. It is what the program of the
line says as a dialogue (`Shell.advance_settles`), and what comes of running the line at once (`Shell.settles_of_begin`).
-/

namespace TreeShell

/-- Whether a result that is answered for as long as it waits, from a list and without an answer when that is used up, leads
through some prompts to another one, which does not wait. -/
inductive ShellResult.Settles : ShellResult → List Answer → List Prompt → ShellResult → Prop
  | ended {r : ShellResult} {answers : List Answer} (rests : ∀ prompt, r.response ≠ .ok (.awaiting prompt)) :
    Settles r answers [] r
  | resumed {r last : ShellResult} {answers : List Answer} {prompt : Prompt} {later : List Prompt}
    (waits : r.response = .ok (.awaiting prompt))
    (goes : Settles (r.shell.resume r.world answers.head?.join) answers.tail later last) :
    Settles r answers (prompt :: later) last

theorem ShellResult.Settles.of_error {r : ShellResult} {error : ShellError} (failed : r.response = .error error)
    (answers : List Answer) : r.Settles answers [] r := by
  refine .ended fun prompt waits => ?_
  rw [failed] at waits
  cases waits

theorem ShellResult.Settles.of_reply {r : ShellResult} {text : String} (replies : r.response = .ok (.reply text))
    (answers : List Answer) : r.Settles answers [] r := by
  refine .ended fun prompt waits => ?_
  rw [replies] at waits
  cases waits

/-- There is one way only in which a result settles. -/
theorem ShellResult.Settles.unique {r last last' : ShellResult} {answers : List Answer} {prompts prompts' : List Prompt}
    (settles : r.Settles answers prompts last) (settles' : r.Settles answers prompts' last') :
    prompts' = prompts ∧ last' = last := by
  induction settles generalizing prompts' last' with
  | ended rests =>
    cases settles' with
    | ended _ => exact ⟨rfl, rfl⟩
    | resumed waits _ => exact absurd waits (rests _)
  | resumed waits _ ih =>
    cases settles' with
    | ended rests => exact absurd waits (rests _)
    | resumed waits' goes' =>
      cases waits.symm.trans waits'
      obtain ⟨rfl, rfl⟩ := ih goes'
      exact ⟨rfl, rfl⟩

namespace Shell

/-- The result with which a shell ends a dialogue. -/
def concluded (s : Shell) (d : Dialogue String) : ShellResult where
  response := (d.result.mapError .store).map .reply
  shell := { s with cwd := d.machine.cwd, pending := none }
  world := d.machine.world

/-- A program that is run on a shell and then answered settles as its dialogue does. -/
theorem advance_settles (s : Shell) (w : World) (p : Program String) (answers : List Answer) :
    (s.advance w p).Settles answers (p.converse answers ⟨w, s.cwd⟩).prompts
      (s.concluded (p.converse answers ⟨w, s.cwd⟩)) := by
  induction p generalizing s w answers with
  | done text => exact .of_reply rfl answers
  | call request next ih =>
    rw [advance, Program.run, Program.converse]
    cases called : w.backend.call request with
    | mk result backend =>
      cases result with
      | error error => exact .of_error rfl answers
      | ok v => exact ih v s { w with backend := backend } answers
  | ask prompt next ih => exact .resumed rfl (ih _ { s with pending := some next } w answers.tail)
  | log event next ih => exact ih s (w.record event) answers
  | cwd next ih => exact ih s.cwd s w answers
  | enter path next ih => exact ih { s with cwd := path } w answers

variable {s ready : Shell} {w w' : World} {line : String} {granted : Option Elevation}

/-- A line is begun with nothing suspended, by the identity of the shell. -/
theorem of_begin (begun : s.begin w line granted = (.ok (), ready, w')) :
    ready.identity = s.identity ∧ ready.pending = none ∧ s.identity ≠ "" := by
  have filled : s.identity ≠ "" := by
    intro empty
    rw [begin, if_pos empty] at begun
    cases begun
  cases loaded : s.ensureLoaded w with
  | mk result after =>
    obtain ⟨s', w₁⟩ := after
    have named := (loading_of loaded).same.1
    cases result with
    | error error =>
      rw [begin, if_neg filled, loaded] at begun
      cases begun
    | ok _ =>
      rw [begin_of_loaded named filled loaded] at begun
      obtain ⟨rfl, -⟩ := Prod.mk.inj (Prod.mk.inj begun).2
      exact ⟨named, rfl, filled⟩

/-- A line that is begun settles as its dialogue does, and running it at once comes to the same. -/
theorem settles_of_begin (begun : s.begin w line granted = (.ok (), ready, w')) (answers : List Answer) :
    let d := (Pipeline.run s.identity line granted).converse answers ⟨w', ready.cwd⟩
    (s.exec w line granted).Settles answers d.prompts (ready.concluded d) ∧
      s.execute w line granted answers = (d.result.mapError .store, (ready.concluded d).shell, d.machine.world) := by
  obtain ⟨named, idle, -⟩ := of_begin begun
  obtain ⟨identity, cwd, loaded, pending⟩ := ready
  obtain rfl : identity = s.identity := named
  obtain rfl : pending = none := idle
  rw [exec, execute, begun]
  dsimp only
  generalize Pipeline.run s.identity line granted = p
  exact ⟨advance_settles .., rfl⟩

/-- So does a line that cannot be begun, at once. -/
theorem settles_of_begin_error {error : ShellError} (failed : s.begin w line granted = (.error error, ready, w'))
    (answers : List Answer) :
    (s.exec w line granted).Settles answers [] ⟨.error error, ready, w'⟩ ∧
      s.execute w line granted answers = (.error error, ready, w') := by
  rw [exec, execute, failed]
  exact ⟨.of_error rfl answers, rfl⟩

/-- Where the store does not fail, whoever is signed in can begin a line. -/
theorem begin_ok (filled : s.identity ≠ "") (noFaults : w.backend.faults = FaultSchedule.none) (line : String)
    (granted : Option Elevation) :
    ∃ ready w', s.begin w line granted = (.ok (), ready, w') ∧ w'.backend.faults = FaultSchedule.none := by
  have read : ∃ ready w₁, s.ensureLoaded w = (.ok (), ready, w₁) ∧ w₁.backend.faults = FaultSchedule.none := by
    rw [ensureLoaded]
    split
    · exact ⟨s, w, rfl, noFaults⟩
    · obtain ⟨result, -⟩ := (Context.load s.identity).converse_eq_play [] (m := ⟨w, s.cwd⟩) noFaults
      have free := (Context.load s.identity).faults_converse [] ⟨w, s.cwd⟩
      rw [load]
      generalize (Context.load s.identity).play _ = r at result
      generalize (Context.load s.identity).converse [] ⟨w, s.cwd⟩ = d at result free
      rw [result]
      exact ⟨_, _, rfl, free.trans noFaults⟩
  obtain ⟨ready, w₁, loaded, free⟩ := read
  refine ⟨_, _, begin_of_loaded (loading_of loaded).same.1 filled loaded line granted, ?_⟩
  exact free

end Shell

end TreeShell
