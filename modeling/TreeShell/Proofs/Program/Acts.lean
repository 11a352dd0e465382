import TreeShell.Proofs.Program.Solo
import TreeShell.Proofs.Store.Refinement

/-! # What programs do, act by act

A program makes calls, shows prompts, writes log records and enters directories. `Program.Leads` says what a program
can do in this way and what is then left of it, whatever others do to the store between its acts, and a sequence does
what its parts can do (`Leads.of_bind`). `Program.trace` is what a run does, and `Program.pursue` carries a program on
from prompt to prompt for as long as there are answers; both do what the program can do (`run_leads`, `pursue_leads`),
and the machine afterwards is settled by it (`Machine.Did`).
-/

namespace TreeShell

/-- Something that a program does. -/
inductive Act where
  /-- A call that succeeded, with its answer. -/
  | called (request : StoreCall) (answer : Value)
  /-- A prompt with the answer that it got. -/
  | asked (prompt : Prompt) (answer : Answer)
  | logged (event : Event)
  | entered (path : String)
deriving DecidableEq

namespace Act

def call? : Act → Option StoreCall
  | .called request _ => some request
  | _ => none

def exchange? : Act → Option (Prompt × Answer)
  | .asked prompt answer => some (prompt, answer)
  | _ => none

def event? : Act → Option Event
  | .logged event => some event
  | _ => none

/-- The working directory after an act. -/
def cwd (before : String) : Act → String
  | .entered path => path
  | _ => before

/-- The calls among some acts. -/
def calls (acts : List Act) : List StoreCall :=
  acts.filterMap call?

/-- The prompts among some acts with their answers. -/
def exchanges (acts : List Act) : List (Prompt × Answer) :=
  acts.filterMap exchange?

/-- The log records among some acts. -/
def events (acts : List Act) : List Event :=
  acts.filterMap event?

/-- The working directory after some acts. -/
def cwdAfter (before : String) (acts : List Act) : String :=
  acts.foldl cwd before

theorem cwdAfter_append (before : String) (acts later : List Act) :
    cwdAfter before (acts ++ later) = cwdAfter (cwdAfter before acts) later :=
  List.foldl_append

end Act

/-- Whether a machine came from another by some acts. -/
structure Machine.Did (m : Machine) (acts : List Act) (n : Machine) : Prop where
  store : n.world.backend.store = m.world.backend.store.after (Act.calls acts)
  cwd : n.cwd = Act.cwdAfter m.cwd acts
  events : n.world.events = m.world.events ++ Act.events acts

namespace Machine.Did

variable {m n o : Machine} {acts later : List Act}

theorem trans (first : m.Did acts n) (second : n.Did later o) : m.Did (acts ++ later) o := by
  refine ⟨?_, ?_, ?_⟩
  · rw [second.store, first.store, Act.calls, Act.calls, Act.calls, List.filterMap_append, Store.after, Store.after,
      Store.after, List.foldl_append]
  · rw [second.cwd, first.cwd, Act.cwdAfter_append]
  · rw [second.events, first.events, Act.events, Act.events, Act.events, List.filterMap_append, List.append_assoc]

theorem refl (m : Machine) : m.Did [] m :=
  ⟨rfl, rfl, (List.append_nil _).symm⟩

end Machine.Did

namespace Program

variable {α β : Type} {cwd : String} {p q : Program α} {acts later : List Act}

/-- Whether a program can do some acts from a working directory, and what is then left of it. -/
inductive Leads : String → Program α → List Act → Program α → Prop
  | here (cwd : String) (p : Program α) : Leads cwd p [] p
  | call {cwd : String} {request : StoreCall} {k : Value → Program α} {acts : List Act} {q : Program α} (s : Store)
    (next : Leads cwd (k (s.perform request).1) acts q) :
    Leads cwd (.call request k) (.called request (s.perform request).1 :: acts) q
  | ask {cwd : String} {prompt : Prompt} {k : Answer → Program α} {acts : List Act} {q : Program α} (answer : Answer)
    (next : Leads cwd (k answer) acts q) : Leads cwd (.ask prompt k) (.asked prompt answer :: acts) q
  | log {cwd : String} {event : Event} {p : Program α} {acts : List Act} {q : Program α} (next : Leads cwd p acts q) :
    Leads cwd (.log event p) (.logged event :: acts) q
  | cwd {cwd : String} {k : String → Program α} {acts : List Act} {q : Program α} (next : Leads cwd (k cwd) acts q) :
    Leads cwd (.cwd k) acts q
  | enter {cwd path : String} {p : Program α} {acts : List Act} {q : Program α} (next : Leads path p acts q) :
    Leads cwd (.enter path p) (.entered path :: acts) q

namespace Leads

theorem trans {r : Program α} (first : Leads cwd p acts q) (second : Leads (Act.cwdAfter cwd acts) q later r) :
    Leads cwd p (acts ++ later) r := by
  induction first with
  | here => exact second
  | call s _ ih => exact .call s (ih second)
  | ask answer _ ih => exact .ask answer (ih second)
  | log _ ih => exact .log (ih second)
  | cwd _ ih => exact .cwd (ih second)
  | enter _ ih => exact .enter (ih second)

/-- A sequence can do what its first part can do. -/
theorem bind (leads : Leads cwd p acts q) (f : α → Program β) : Leads cwd (p >>= f) acts (q >>= f) := by
  induction leads with
  | here => exact .here ..
  | call s _ ih => exact .call s ih
  | ask answer _ ih => exact .ask answer ih
  | log _ ih => exact .log ih
  | cwd _ ih => exact .cwd ih
  | enter _ ih => exact .enter ih

end Leads

/-- Whether a sequence has come to a program within its first part, or behind it after that part has ended. -/
def Splits (cwd : String) (p : Program α) (f : α → Program β) (acts : List Act) (q : Program β) : Prop :=
  (∃ p', Leads cwd p acts p' ∧ q = p' >>= f) ∨
    ∃ a first second, acts = first ++ second ∧ Leads cwd p first (.done a) ∧ Leads (Act.cwdAfter cwd first) (f a) second q

theorem Splits.after {act : Act} {p' : Program α} {f : α → Program β} {q : Program β}
    (step : ∀ {acts r}, Leads (act.cwd cwd) p' acts r → Leads cwd p (act :: acts) r)
    (splits : Splits (act.cwd cwd) p' f acts q) : Splits cwd p f (act :: acts) q := by
  rcases splits with ⟨p'', inside, rfl⟩ | ⟨a, first, second, rfl, ended, goes⟩
  · exact .inl ⟨p'', step inside, rfl⟩
  · exact .inr ⟨a, act :: first, second, rfl, step ended, goes⟩

/-- A sequence does what its first part can do, or that part ends and the other goes on. -/
theorem Leads.of_bind {f : α → Program β} {q : Program β} (leads : Leads cwd (p >>= f) acts q) :
    Splits cwd p f acts q := by
  have here (cwd : String) (p : Program α) : Splits cwd p f [] (p >>= f) := .inl ⟨p, .here .., rfl⟩
  induction p generalizing cwd acts with
  | done a => exact .inr ⟨a, [], acts, rfl, .here .., leads⟩
  | call request k ih =>
    cases leads with
    | here => exact here ..
    | call s next => exact (ih _ next).after (.call s)
  | ask prompt k ih =>
    cases leads with
    | here => exact here ..
    | ask answer next => exact (ih _ next).after (.ask answer)
  | log event p ih =>
    cases leads with
    | here => exact here ..
    | log next => exact (ih next).after .log
  | enter path p ih =>
    cases leads with
    | here => exact here ..
    | enter next => exact (ih next).after .enter
  | cwd k ih =>
    cases leads with
    | here => exact here ..
    | cwd next =>
      rcases ih _ next with ⟨p', inside, rfl⟩ | ⟨a, first, second, rfl, ended, goes⟩
      · exact .inl ⟨p', .cwd inside, rfl⟩
      · exact .inr ⟨a, first, second, rfl, .cwd ended, goes⟩

/-! ## Runs -/

/-- What a run does until the program ends, waits or meets a failing call. -/
def trace : Program α → Machine → List Act
  | .done _, _ => []
  | .call request next, m =>
    match m.world.backend.call request with
    | (.ok v, backend) => .called request v :: (next v).trace { m with world := { m.world with backend := backend } }
    | (.error _, _) => []
  | .ask _ _, _ => []
  | .log event next, m => .logged event :: next.trace { m with world := m.world.record event }
  | .cwd next, m => (next m.cwd).trace m
  | .enter path next, m => .entered path :: next.trace { m with cwd := path }

end Program

/-- Whether the calls among some acts got the answers of a store, as the calls before have left it. -/
inductive Store.Answers : Store → List Act → Prop
  | nil (s : Store) : Answers s []
  | called {s : Store} {request : StoreCall} {later : List Act} (rest : Answers (s.perform request).2 later) :
    Answers s (.called request (s.perform request).1 :: later)
  | quiet {s : Store} {a : Act} {later : List Act} (silent : a.call? = none) (rest : Answers s later) :
    Answers s (a :: later)

/-- Whether a program that stopped so is what is left of it. -/
def Outcome.Stops {α : Type} : Outcome α → Program α → Prop
  | .finished a, q => q = .done a
  | .waiting prompt resume, q => q = .ask prompt resume
  | .failed error, q => ∃ request next, q = .call request next ∧ error.key = request.key

namespace Program

variable {α : Type}

/-- A run does what the program can do. -/
theorem run_leads (p : Program α) (m : Machine) :
    ∃ q, Leads m.cwd p (p.trace m) q ∧ (p.run m).1.Stops q := by
  induction p generalizing m with
  | done a => exact ⟨_, .here .., rfl⟩
  | call request next ih =>
    rw [trace, run]
    cases fault : m.world.backend.faults m.world.backend.calls request with
    | some message =>
      rw [Backend.call_of_fault fault]
      exact ⟨_, .here .., request, next, rfl, rfl⟩
    | none =>
      rw [Backend.call_of_no_fault fault]
      obtain ⟨q, leads, stops⟩ := ih (m.world.backend.store.perform request).1
        { m with world := { m.world with backend := { m.world.backend with
          store := (m.world.backend.store.perform request).2, calls := m.world.backend.calls + 1 } } }
      exact ⟨q, .call m.world.backend.store leads, stops⟩
  | ask prompt next ih => exact ⟨_, .here .., rfl⟩
  | log event next ih =>
    obtain ⟨q, leads, stops⟩ := ih { m with world := m.world.record event }
    exact ⟨q, .log leads, stops⟩
  | cwd next ih =>
    obtain ⟨q, leads, stops⟩ := ih m.cwd m
    exact ⟨q, .cwd leads, stops⟩
  | enter path next ih =>
    obtain ⟨q, leads, stops⟩ := ih { m with cwd := path }
    exact ⟨q, .enter leads, stops⟩

/-- The machine after a run is what the acts of the run have made of it. -/
theorem run_did (p : Program α) (m : Machine) : m.Did (p.trace m) (p.run m).2 := by
  induction p generalizing m with
  | done a => exact .refl m
  | call request next ih =>
    rw [trace, run]
    cases fault : m.world.backend.faults m.world.backend.calls request with
    | some message =>
      rw [Backend.call_of_fault fault]
      exact ⟨rfl, rfl, (List.append_nil _).symm⟩
    | none =>
      rw [Backend.call_of_no_fault fault]
      obtain ⟨store, cwd, events⟩ := ih (m.world.backend.store.perform request).1
        { m with world := { m.world with backend := { m.world.backend with
          store := (m.world.backend.store.perform request).2, calls := m.world.backend.calls + 1 } } }
      exact ⟨store, cwd, events⟩
  | ask prompt next ih => exact .refl m
  | log event next ih =>
    obtain ⟨store, cwd, events⟩ := ih { m with world := m.world.record event }
    refine ⟨store, cwd, events.trans ?_⟩
    exact List.append_assoc ..
  | cwd next ih => exact ih m.cwd m
  | enter path next ih =>
    obtain ⟨store, cwd, events⟩ := ih { m with cwd := path }
    exact ⟨store, cwd, events⟩

/-- The calls of a run get the answers of the store. -/
theorem trace_answers (p : Program α) (m : Machine) : m.world.backend.store.Answers (p.trace m) := by
  induction p generalizing m with
  | done a => exact .nil _
  | call request next ih =>
    rw [trace]
    cases fault : m.world.backend.faults m.world.backend.calls request with
    | some message =>
      rw [Backend.call_of_fault fault]
      exact .nil _
    | none =>
      rw [Backend.call_of_no_fault fault]
      exact .called (ih (m.world.backend.store.perform request).1 { m with world := { m.world with backend :=
        { m.world.backend with store := (m.world.backend.store.perform request).2, calls := m.world.backend.calls + 1 } } })
  | ask prompt next ih => exact .nil _
  | log event next ih => exact .quiet rfl (ih { m with world := m.world.record event })
  | cwd next ih => exact ih m.cwd m
  | enter path next ih => exact .quiet rfl (ih { m with cwd := path })

/-- What was logged before does not matter to a run. -/
theorem run_congr (p : Program α) {m n : Machine} (backend : n.world.backend = m.world.backend) (cwd : n.cwd = m.cwd) :
    p.trace n = p.trace m ∧ (p.run n).1 = (p.run m).1 ∧ (p.run n).2.world.backend = (p.run m).2.world.backend ∧
      (p.run n).2.cwd = (p.run m).2.cwd := by
  induction p generalizing m n with
  | done a => exact ⟨rfl, rfl, backend, cwd⟩
  | call request next ih =>
    rw [trace, trace, run, run, backend]
    rcases m.world.backend.call request with ⟨error | v, after⟩
    · exact ⟨rfl, rfl, rfl, cwd⟩
    · obtain ⟨acts, same⟩ := @ih v { m with world := { m.world with backend := after } }
        { n with world := { n.world with backend := after } } rfl cwd
      exact ⟨congrArg (List.cons (.called request v)) acts, same⟩
  | ask prompt next ih => exact ⟨rfl, rfl, backend, cwd⟩
  | log event next ih =>
    obtain ⟨acts, same⟩ := @ih { m with world := m.world.record event } { n with world := n.world.record event } backend cwd
    exact ⟨by rw [trace, trace, acts], same⟩
  | cwd next ih =>
    rw [trace, trace, run, run, cwd]
    exact ih m.cwd backend cwd
  | enter path next ih =>
    obtain ⟨acts, same⟩ := @ih { m with cwd := path } { n with cwd := path } backend rfl
    exact ⟨by rw [trace, trace, acts], same⟩

end Program

/-! ## Runs from prompt to prompt -/

/-- What came of a program that was answered from a list: what it did, where it stopped, and the machine then. -/
structure Pursuit (α : Type) where
  acts : List Act
  outcome : Outcome α
  machine : Machine

namespace Program

variable {α : Type}

/-- Runs a program, and goes on with it for as long as it waits and there are answers. It may be left waiting. -/
def pursue : Program α → List Answer → Machine → Pursuit α
  | p, [], m => ⟨p.trace m, (p.run m).1, (p.run m).2⟩
  | p, answer :: rest, m =>
    match p.run m with
    | (.waiting prompt resume, n) =>
      let r := (resume answer).pursue rest n
      { r with acts := p.trace m ++ .asked prompt answer :: r.acts }
    | (stopped, n) => ⟨p.trace m, stopped, n⟩

/-- A program that is carried on does what it can do, and the machine afterwards is what that has made of it. -/
theorem pursue_leads (p : Program α) (answers : List Answer) (m : Machine) :
    (∃ q, Leads m.cwd p (p.pursue answers m).acts q ∧ (p.pursue answers m).outcome.Stops q) ∧
      m.Did (p.pursue answers m).acts (p.pursue answers m).machine := by
  induction answers generalizing p m with
  | nil => exact ⟨p.run_leads m, p.run_did m⟩
  | cons answer rest ih =>
    have leads := p.run_leads m
    have did := p.run_did m
    rw [pursue]
    generalize p.run m = ran at leads did
    obtain ⟨outcome, n⟩ := ran
    cases outcome with
    | waiting prompt resume =>
      obtain ⟨_, first, rfl⟩ := leads
      obtain ⟨⟨q, second, stops⟩, later⟩ := ih (resume answer) n
      rw [did.cwd] at second
      have asked : n.Did [.asked prompt answer] n := ⟨rfl, rfl, (List.append_nil _).symm⟩
      exact ⟨⟨q, first.trans (.ask answer second), stops⟩, did.trans (asked.trans later)⟩
    | finished result => exact ⟨leads, did⟩
    | failed error => exact ⟨leads, did⟩

end Program

end TreeShell
