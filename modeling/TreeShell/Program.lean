import TreeShell.Event
import TreeShell.Prompt
import TreeShell.Store.Fault

/-! # Programs

A command runs as a program: a tree of the things it does, one after the other, to the store, the log
and the working directory, and of the prompts at which it waits for an answer. `Program.run` carries a
program out on a machine until it ends, waits or meets a failing store; a program that waits is just the
function from the answer to the rest. `Program.converse` also answers the prompts from a list.
-/

namespace TreeShell

/-- What a command does until it gives its result. -/
inductive Program (α : Type) where
  /-- The result. -/
  | done (result : α)
  /-- A call on the store; all but reading answer null. -/
  | call (request : StoreCall) (next : Value → Program α)
  /-- A prompt. -/
  | ask (prompt : Prompt) (next : Answer → Program α)
  /-- A log record. -/
  | log (event : Event) (next : Program α)
  /-- A look at the working directory. -/
  | cwd (next : String → Program α)
  /-- A change of the working directory. -/
  | enter (path : String) (next : Program α)

namespace Program

variable {α β γ : Type}

/-- One program and then another that depends on its result. -/
def bind : Program α → (α → Program β) → Program β
  | .done a, f => f a
  | .call request next, f => .call request fun v => (next v).bind f
  | .ask prompt next, f => .ask prompt fun a => (next a).bind f
  | .log event next, f => .log event (next.bind f)
  | .cwd next, f => .cwd fun path => (next path).bind f
  | .enter path next, f => .enter path (next.bind f)

instance : Monad Program where
  pure := .done
  bind := bind

/-- Reads the value at a key. -/
def fetch (key : String) : Program Value :=
  .call (.get key) .done

/-- Writes a value at a key. -/
def write (key : String) (value : Value) : Program Unit :=
  .call (.set key value) fun _ => .done ()

/-- Writes several values below a key. -/
def merge (key : String) (pairs : List (String × Value)) : Program Unit :=
  .call (.update key pairs) fun _ => .done ()

/-- Deletes what is at a key. -/
def delete (key : String) : Program Unit :=
  .call (.remove key) fun _ => .done ()

/-- Shows a prompt and gives the answer. -/
def prompt (p : Prompt) : Program Answer :=
  .ask p .done

/-- Logs an event. -/
def record (event : Event) : Program Unit :=
  .log event (.done ())

/-- The working directory. -/
def workingDirectory : Program String :=
  .cwd .done

/-- Makes a path the working directory. -/
def changeDirectory (path : String) : Program Unit :=
  .enter path (.done ())

@[simp]
theorem bind_eq (p : Program α) (f : α → Program β) : p >>= f = p.bind f :=
  rfl

@[simp]
theorem bind_done (p : Program α) : p.bind .done = p := by
  induction p with
  | done => rfl
  | call request next ih => simp [bind, ih]
  | ask prompt next ih => simp [bind, ih]
  | log event next ih => simp [bind, ih]
  | cwd next ih => simp [bind, ih]
  | enter path next ih => simp [bind, ih]

theorem bind_assoc (p : Program α) (f : α → Program β) (g : β → Program γ) :
    (p.bind f).bind g = p.bind fun a => (f a).bind g := by
  induction p with
  | done => rfl
  | call request next ih => simp [bind, ih]
  | ask prompt next ih => simp [bind, ih]
  | log event next ih => simp [bind, ih]
  | cwd next ih => simp [bind, ih]
  | enter path next ih => simp [bind, ih]

end Program

/-- What the commands of all users share: the store with its faults, and the log, oldest event first. -/
structure World where
  backend : Backend
  events : List Event := []

/-- The world with one more event in the log. -/
def World.record (w : World) (e : Event) : World :=
  { w with events := w.events ++ [e] }

/-- What a program runs on: the world and the working directory of its user. -/
structure Machine where
  world : World
  cwd : String

/-- How far a program came. -/
inductive Outcome (α : Type) where
  /-- To its result. -/
  | finished (result : α)
  /-- To a prompt; the rest depends on the answer. -/
  | waiting (prompt : Prompt) (resume : Answer → Program α)
  /-- To a call that failed. -/
  | failed (error : StoreError)

/-- What came of a program whose prompts were answered: the prompts in order, its result or the failure
that stopped it, and the machine afterwards. -/
structure Dialogue (α : Type) where
  prompts : List Prompt
  result : Except StoreError α
  machine : Machine

namespace Program

variable {α : Type}

/-- Runs a program until it ends, waits for an answer, or meets a failing call. -/
def run : Program α → Machine → Outcome α × Machine
  | .done a, m => (.finished a, m)
  | .call request next, m =>
    match m.world.backend.call request with
    | (.ok v, backend) => (next v).run { m with world := { m.world with backend := backend } }
    | (.error e, backend) => (.failed e, { m with world := { m.world with backend := backend } })
  | .ask prompt next, m => (.waiting prompt next, m)
  | .log event next, m => next.run { m with world := m.world.record event }
  | .cwd next, m => (next m.cwd).run m
  | .enter path next, m => next.run { m with cwd := path }

/-- Runs a program to its end, answering its prompts from a list and cancelling when that is used up. -/
def converse : Program α → List Answer → Machine → Dialogue α
  | .done a, _, m => ⟨[], .ok a, m⟩
  | .call request next, answers, m =>
    match m.world.backend.call request with
    | (.ok v, backend) => (next v).converse answers { m with world := { m.world with backend := backend } }
    | (.error e, backend) => ⟨[], .error e, { m with world := { m.world with backend := backend } }⟩
  | .ask prompt next, answers, m =>
    let d := (next answers.head?.join).converse answers.tail m
    { d with prompts := prompt :: d.prompts }
  | .log event next, answers, m => next.converse answers { m with world := m.world.record event }
  | .cwd next, answers, m => (next m.cwd).converse answers m
  | .enter path next, answers, m => next.converse answers { m with cwd := path }

/-- Runs a program that depends on the world alone; a prompt would be cancelled. -/
def runOn (p : Program α) (w : World) : Except StoreError α × World :=
  let d := p.converse [] ⟨w, "/"⟩
  (d.result, d.machine.world)

end Program

end TreeShell
