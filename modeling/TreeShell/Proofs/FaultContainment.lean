import TreeShell.Proofs.Web.Requests

/-! # Front ends on a failing store

Whichever calls on the store fail, neither front end is broken off. A console tells of every error with one record in the
log, and of every one but that of reading the working directory also with one line, and goes on with the next line; the
dashboard answers with status 502 and leaves one record. A line that met the error does not wait any more.
-/

namespace TreeShell

/-- Whether a console copes with the calls that fail. -/
structure Console.Copes (identity : String) (c : Chat) (input : Input) : Prop where
  returns : (run identity c input).failure = none
  closed : (run identity c input).closed = true
  /-- The store, the log and the shells afterwards are those that the calls of the console leave. -/
  attended : c.Attended identity (callsOf identity c input) (run identity c input).chat
  /-- Each call that fails has left one record. -/
  failures : (run identity c input).chat.failures =
    c.failures ++ failureRecords identity (c.world.backend.errors (callsOf identity c input))
  /-- These calls are the one that was to read the working directory, and those of the turns. -/
  errors : c.world.backend.errors (callsOf identity c input) =
    c.world.backend.errors ((c.shellOf identity).readCalls c.world) ++
      (visits input.broken identity (prepare identity c) input.bytes).flatMap fun v =>
        v.chat.world.backend.errors (turnCalls input.broken identity v.chat v.bytes)
  /-- Nothing is sent but the greeting and what the turns send. -/
  sent : (run identity c input).sent =
    greeting identity ++
      (visits input.broken identity (prepare identity c) input.bytes).flatMap fun v =>
        (turn input.broken identity v.chat v.bytes).sent
  /-- A turn in which a call fails ends with the line that says so, and is followed by another. -/
  took : ∀ v ∈ visits input.broken identity (prepare identity c) input.bytes,
    Took input.broken identity v.chat v.bytes

theorem Console.copes {c : Chat} (settled : c.Settled) (ascii : c.gate.IsAscii) {identity : String}
    (filled : identity ≠ "") (input : Input) : Copes identity c input := by
  have prepared := attended_prepare settled identity
  have turns := takesTurns prepared.settled filled input.broken input.bytes
  have all := attended settled filled input
  constructor
  · exact returns settled ascii filled input
  · exact closed_run identity c input
  · exact all
  · exact all.failures
  · rw [callsOf, Backend.errors_append, ← prepared.backend, turns.errors]
  · rw [run, Run.close, turns.sent]
  · exact turns.took (prepared.gate ▸ ascii)

/-- No error of the store escapes a front end. On a chat whose shells wait for nothing but what is left of lines that
they began, as those of a fresh chat do, on any store with any schedule of faults, with a digest that is ASCII:

- a console of an identity returns on every input with its channel closed, leaves one record for every call that fails,
  and ends the turn of such a call with the one line that says so, unless the call was to read the working directory,
  after which the next turn follows;
- a request to the dashboard that asks for a step of which a call fails is answered with status 502 and leaves one
  record;
- after such a turn or request nothing waits in the shell of the identity, unless that shell was not reached. -/
theorem store_faults_contained {c : Chat} (settled : c.Settled) (ascii : c.gate.IsAscii) :
    (∀ identity, identity ≠ "" → ∀ input, Console.Copes identity c input) ∧
      ∀ request, Web.Answered c request ∧
        ∀ s, Web.step? request = some s → c.Attended s.identity (c.calls s) (Web.handle c request).2 := by
  constructor
  · intro identity filled input
    exact Console.copes settled ascii filled input
  · intro request
    exact ⟨Web.answered settled ascii request, fun s found => Web.attended settled ascii found⟩

/-- A fresh chat whose store is down. -/
def Chat.offline : Chat :=
  { blank with world := { backend := { store := .empty, faults := fun _ _ => some "down" } } }

/-- When the store is down, a console still ends as it should, and the dashboard says what is wrong. -/
theorem store_faults_contained_offline :
    Chat.offline.Settled ∧ Chat.offline.gate.IsAscii ∧
      (Console.run "alice" Chat.offline ⟨"ls\nexit\n".toUTF8.toList, false⟩).failure = none ∧
      (Console.run "alice" Chat.offline ⟨"ls\nexit\n".toUTF8.toList, false⟩).closed = true ∧
      Web.handle Chat.offline
          ⟨"POST", "/api/shell", some (.mapping [("message", .text "ls")]), some "alice"⟩ =
        (.ok ⟨502, .json (.mapping [("status", .text "error"), ("text", .text "shell: storage error: down")])⟩,
          (Chat.offline.step (.handle "alice" "ls" none)).2.record (.storeFailure "alice" "down")) := by
  have settled : Chat.offline.Settled := Chat.settled_of_fresh rfl
  have ascii : Chat.offline.gate.IsAscii := by decide
  obtain ⟨console, web⟩ := store_faults_contained settled ascii
  have copes := console "alice" (by decide) ⟨"ls\nexit\n".toUTF8.toList, false⟩
  refine ⟨settled, ascii, copes.returns, copes.closed, ?_⟩
  have asks : Web.step? ⟨"POST", "/api/shell", some (.mapping [("message", .text "ls")]), some "alice"⟩ =
      some (.handle "alice" "ls" none) := by decide +kernel
  cases (web ⟨"POST", "/api/shell", some (.mapping [("message", .text "ls")]), some "alice"⟩).1 with
  | unasked nothing => cases nothing.symm.trans asks
  | served s response found met =>
    obtain rfl := Option.some.inj (found.symm.trans asks)
    cases met.symm.trans (by decide +kernel : Chat.offline.world.backend.errors _ = [⟨"down", Key.ban "alice"⟩])
  | failed s error found met answered =>
    obtain rfl := Option.some.inj (found.symm.trans asks)
    cases met.symm.trans (by decide +kernel : Chat.offline.world.backend.errors _ = [⟨"down", Key.ban "alice"⟩])
    exact answered

end TreeShell
