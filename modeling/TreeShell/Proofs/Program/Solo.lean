import TreeShell.Program

/-! # Programs alone on a store that never fails

Without faults and without other sessions a program is a function: it takes the store, the working
directory and the answers to come, and gives its result with what is left of them (`Program.play`). Playing
one program after another is playing their sequence (`play_bind`), and on a machine without faults a
dialogue is what playing says (`converse_eq_play`).
-/

namespace TreeShell

/-- A session that has a store without faults to itself. -/
structure Solo where
  store : Store
  cwd : String
  /-- The log, oldest event first. -/
  events : List Event
  /-- The answers to come. -/
  answers : List Answer
  /-- The prompts shown so far with their answers. -/
  asked : List (Prompt × Answer)

namespace Solo

/-- The next answer; a prompt is cancelled when the answers are used up. -/
def answer (u : Solo) : Answer :=
  u.answers.head?.join

/-- The session after a prompt. -/
def ask (u : Solo) (prompt : Prompt) : Solo :=
  { u with answers := u.answers.tail, asked := u.asked ++ [(prompt, u.answer)] }

/-- The session after a call on the store. -/
def perform (u : Solo) (request : StoreCall) : Solo :=
  { u with store := (u.store.perform request).2 }

/-- The session with one more event in its log. -/
def record (u : Solo) (event : Event) : Solo :=
  { u with events := u.events ++ [event] }

/-- The session in another working directory. -/
def enter (u : Solo) (path : String) : Solo :=
  { u with cwd := path }

@[simp] theorem store_ask (u : Solo) (prompt : Prompt) : (u.ask prompt).store = u.store := rfl

@[simp] theorem store_record (u : Solo) (event : Event) : (u.record event).store = u.store := rfl

@[simp] theorem store_perform_set (u : Solo) (key : String) (value : Value) :
    (u.perform (.set key value)).store = u.store.set key value := rfl

@[simp] theorem store_perform_update (u : Solo) (key : String) (pairs : List (String × Value)) :
    (u.perform (.update key pairs)).store = u.store.update key pairs := rfl

@[simp] theorem store_perform_remove (u : Solo) (key : String) :
    (u.perform (.remove key)).store = u.store.remove key := rfl

@[simp] theorem asked_perform (u : Solo) (request : StoreCall) : (u.perform request).asked = u.asked := rfl

theorem answer_perform (u : Solo) (request : StoreCall) : (u.perform request).answer = u.answer := rfl

/-- Whether nothing has happened to a session since but prompts. -/
structure Asks (u v : Solo) : Prop where
  store : v.store = u.store
  cwd : v.cwd = u.cwd
  events : v.events = u.events
  asked : u.asked <+: v.asked

variable {u v w : Solo}

theorem Asks.refl (u : Solo) : u.Asks u :=
  ⟨rfl, rfl, rfl, List.prefix_rfl⟩

theorem Asks.trans (first : u.Asks v) (second : v.Asks w) : u.Asks w :=
  ⟨second.store.trans first.store, second.cwd.trans first.cwd, second.events.trans first.events,
    first.asked.trans second.asked⟩

theorem asks_ask (u : Solo) (prompt : Prompt) : u.Asks (u.ask prompt) :=
  ⟨rfl, rfl, rfl, List.prefix_append ..⟩

end Solo

namespace Program

variable {α β : Type}

/-- What a program comes to on a session of its own. -/
def play : Program α → Solo → α × Solo
  | .done a, u => (a, u)
  | .call request next, u => (next (u.store.perform request).1).play (u.perform request)
  | .ask prompt next, u => (next u.answer).play (u.ask prompt)
  | .log event next, u => next.play (u.record event)
  | .cwd next, u => (next u.cwd).play u
  | .enter path next, u => next.play (u.enter path)

@[simp] theorem play_pure (a : α) (u : Solo) : (pure a : Program α).play u = (a, u) := rfl

@[simp] theorem play_done (a : α) (u : Solo) : (done a).play u = (a, u) := rfl

theorem play_call_get (key : String) (next : Value → Program α) (u : Solo) :
    (call (.get key) next).play u = (next (u.store.get key)).play u := rfl

theorem play_ask (prompt : Prompt) (next : Answer → Program α) (u : Solo) :
    (ask prompt next).play u = (next u.answer).play (u.ask prompt) := rfl

/-- A sequence is played part by part. -/
@[simp] theorem play_bind (p : Program α) (f : α → Program β) (u : Solo) :
    (p >>= f).play u = (f (p.play u).1).play (p.play u).2 := by
  change (p.bind f).play u = _
  induction p generalizing u with
  | done a => rfl
  | call request next ih => exact ih _ _
  | ask prompt next ih => exact ih _ _
  | log event next ih => exact ih _
  | cwd next ih => exact ih _ _
  | enter path next ih => exact ih _

/-- A sequence goes on from what its first part came to. -/
theorem play_bind_eq {p : Program α} {u v : Solo} {a : α} (first : p.play u = (a, v)) (f : α → Program β) :
    (p >>= f).play u = (f a).play v := by
  rw [play_bind, first]

@[simp] theorem play_fetch (key : String) (u : Solo) : (fetch key).play u = (u.store.get key, u) := rfl

@[simp] theorem play_write (key : String) (value : Value) (u : Solo) :
    (write key value).play u = ((), u.perform (.set key value)) := rfl

@[simp] theorem play_merge (key : String) (pairs : List (String × Value)) (u : Solo) :
    (merge key pairs).play u = ((), u.perform (.update key pairs)) := rfl

@[simp] theorem play_prompt (p : Prompt) (u : Solo) : (prompt p).play u = (u.answer, u.ask p) := rfl

end Program

theorem Backend.call_of_fault {b : Backend} {request : StoreCall} {message : String}
    (fault : b.faults b.calls request = some message) :
    b.call request = (.error ⟨message, request.key⟩, { b with calls := b.calls + 1 }) := by
  rw [call, fault]

theorem Backend.call_of_no_fault {b : Backend} {request : StoreCall}
    (noFault : b.faults b.calls request = none) :
    b.call request = (.ok (b.store.perform request).1,
      { b with store := (b.store.perform request).2, calls := b.calls + 1 }) := by
  rw [call, noFault]

/-- The prompts of a dialogue with the answers they got from a list, cancelled when it was used up. -/
def exchanges : List Prompt → List Answer → List (Prompt × Answer)
  | [], _ => []
  | prompt :: rest, answers => (prompt, answers.head?.join) :: exchanges rest answers.tail

/-- The session that a program plays in on a machine with the given answers. -/
def Machine.solo (m : Machine) (answers : List Answer) : Solo :=
  ⟨m.world.backend.store, m.cwd, m.world.events, answers, []⟩

/-- Without faults a dialogue is the play of its program, whatever was asked before. -/
theorem Program.converse_play {α : Type} (p : Program α) (answers : List Answer) (m : Machine)
    (noFaults : m.world.backend.faults = FaultSchedule.none) (before : List (Prompt × Answer)) :
    let d := p.converse answers m
    let r := p.play { m.solo answers with asked := before }
    d.result = .ok r.1 ∧ d.machine.world.backend.store = r.2.store ∧ d.machine.cwd = r.2.cwd ∧
      d.machine.world.events = r.2.events ∧ r.2.asked = before ++ exchanges d.prompts answers := by
  induction p generalizing answers m before with
  | done a => exact ⟨rfl, rfl, rfl, rfl, (List.append_nil _).symm⟩
  | call request next ih =>
    have free : m.world.backend.faults m.world.backend.calls request = none := by rw [noFaults]; rfl
    simp only [converse, Backend.call_of_no_fault free]
    refine ih _ answers _ ?_ before
    exact noFaults
  | ask prompt next ih =>
    obtain ⟨result, store, cwd, events, asked⟩ :=
      ih answers.head?.join answers.tail m noFaults (before ++ [(prompt, answers.head?.join)])
    refine ⟨result, store, cwd, events, ?_⟩
    simp only [converse, exchanges]
    rw [List.append_cons]
    exact asked
  | log event next ih =>
    refine ih answers _ ?_ before
    exact noFaults
  | cwd next ih => exact ih m.cwd answers m noFaults before
  | enter path next ih =>
    refine ih answers _ ?_ before
    exact noFaults

/-- Without faults a dialogue is the play of its program. -/
theorem Program.converse_eq_play {α : Type} (p : Program α) (answers : List Answer) {m : Machine}
    (noFaults : m.world.backend.faults = FaultSchedule.none) :
    let d := p.converse answers m
    let r := p.play (m.solo answers)
    d.result = .ok r.1 ∧ d.machine.world.backend.store = r.2.store ∧ d.machine.cwd = r.2.cwd ∧
      d.machine.world.events = r.2.events ∧ r.2.asked = exchanges d.prompts answers :=
  p.converse_play answers m noFaults []

/-- A dialogue leaves the faults of the store as they are. -/
theorem Program.faults_converse {α : Type} (p : Program α) (answers : List Answer) (m : Machine) :
    (p.converse answers m).machine.world.backend.faults = m.world.backend.faults := by
  induction p generalizing answers m with
  | done a => rfl
  | call request next ih =>
    have kept : (m.world.backend.call request).2.faults = m.world.backend.faults := by
      rw [Backend.call]
      split <;> rfl
    rw [converse]
    cases called : m.world.backend.call request with
    | mk result backend =>
      rw [called] at kept
      cases result with
      | ok v => exact (ih v answers _).trans kept
      | error e => exact kept
  | ask prompt next ih => exact ih _ _ m
  | log event next ih => exact ih answers _
  | cwd next ih => exact ih _ answers m
  | enter path next ih => exact ih answers _

end TreeShell
