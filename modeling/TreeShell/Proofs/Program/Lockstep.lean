import TreeShell.Proofs.Program.Solo
import TreeShell.Proofs.Store.Veil
import TreeShell.Proofs.Verb.Guard

/-! # Programs that do not tell passwords apart

Two programs run in lockstep from a working directory if on stores that are the same up to passwords they
make the same calls, log the same events and show the same prompts. What they read may differ, and so may
what they go on to do with it, but never so that one does what the other does not. The one place where a
password may count is the gate: there both go on as the answer opens the path or not.

A run keeps lockstep up to its next prompt (`Lockstep.run`), and an answer that opens the path in both
stores or in neither keeps it across the prompt (`Lockstep.answer`).
-/

namespace TreeShell

/-- Stores that are the same up to passwords protect the same paths. -/
theorem Store.password?_congr {s t : Store} {path : String} (alike : s.blanked = t.blanked)
    (resolved : Path.IsResolved path) :
    (s.password? path).isSome = (t.password? path).isSome := by
  obtain ⟨segs, names, rfl⟩ := resolved.exists_names
  have same := blank_find_congr alike (Key.passwordEntry (Path.ofSegments segs))
  rw [← Key.components_password names] at same
  have texts (v w : Value) (blanked : v.blank = w.blank) :
      (Vault.password? v).isSome = (Vault.password? w).isSome := by
    cases v <;> cases w <;> simp_all [Value.blank, Vault.password?]
  exact texts _ _ same

/-- Whether two programs run in lockstep from a working directory, to results that agree in the working
directory then. -/
inductive Lockstep {α β : Type} (agree : String → α → β → Prop) : String → Program α → Program β → Prop
  | done {c a b} (result : agree c a b) : Lockstep agree c (.done a) (.done b)
  | call {c request k k'}
    (next : ∀ s t : Store, s.blanked = t.blanked →
      Lockstep agree c (k (s.perform request).1) (k' (t.perform request).1)) :
    Lockstep agree c (.call request k) (.call request k')
  | ask {c prompt k k'} (free : ∀ label, prompt ≠ Verb.passwordPrompt label)
    (next : ∀ answer, Lockstep agree c (k answer) (k' answer)) :
    Lockstep agree c (.ask prompt k) (.ask prompt k')
  | gate {c} {label : String} {k : Bool → Program α} {k' : Bool → Program β}
    (next : ∀ opens, Lockstep agree c (k opens) (k' opens)) :
    Lockstep agree c
      (.ask (Verb.passwordPrompt label) fun answer =>
        .call (.get (Key.password (Path.resolve label c))) fun v => k (Vault.opens v answer))
      (.ask (Verb.passwordPrompt label) fun answer =>
        .call (.get (Key.password (Path.resolve label c))) fun v => k' (Vault.opens v answer))
  | log {c event p q} (next : Lockstep agree c p q) : Lockstep agree c (.log event p) (.log event q)
  | cwd {c k k'} (next : Lockstep agree c (k c) (k' c)) : Lockstep agree c (.cwd k) (.cwd k')
  | enter {c path p q} (next : Lockstep agree path p q) :
    Lockstep agree c (.enter path p) (.enter path q)

/-- Whether a program tells nothing about passwords: it runs in lockstep with itself to the same result. -/
def Discreet {α : Type} (c : String) (p : Program α) : Prop :=
  Lockstep (fun _ a b => a = b) c p p

namespace Lockstep

variable {α β α' β' : Type} {agree : String → α → β → Prop} {agree' : String → α' → β' → Prop}
  {c : String} {p : Program α} {q : Program β} {f : α → Program α'} {g : β → Program β'}

/-- Lockstep goes on through a sequence if it does from all results that agree. -/
theorem bind (first : Lockstep agree c p q)
    (next : ∀ c a b, agree c a b → Lockstep agree' c (f a) (g b)) : Lockstep agree' c (p >>= f) (q >>= g) := by
  induction first with
  | done result => exact next _ _ _ result
  | call _ ih => exact .call fun s t alike => ih s t alike
  | ask free _ ih => exact .ask free ih
  | gate _ ih => exact .gate ih
  | log _ ih => exact .log ih
  | cwd _ ih => exact .cwd ih
  | enter _ ih => exact .enter ih

theorem pure {a : α} {b : β} (result : agree c a b) :
    Lockstep agree c (Pure.pure a : Program α) (Pure.pure b : Program β) :=
  .done result

theorem mono {weaker : String → α → β → Prop} (first : Lockstep agree c p q)
    (imp : ∀ c a b, agree c a b → weaker c a b) : Lockstep weaker c p q := by
  have through := first.bind fun c a b result => Lockstep.done (imp c a b result)
  simpa using through

/-- A read goes on in lockstep if it does with the values of any two stores that are the same up to
passwords. -/
theorem get {key : String} {k : Value → Program α} {k' : Value → Program β}
    (next : ∀ s t : Store, s.blanked = t.blanked → Lockstep agree c (k (s.get key)) (k' (t.get key))) :
    Lockstep agree c (.call (.get key) k) (.call (.get key) k') :=
  .call next

theorem changeDirectory (path : String) :
    Lockstep (fun c' _ _ => c' = path) c (Program.changeDirectory path) (Program.changeDirectory path) :=
  .enter (.done rfl)

theorem record (event : Event) :
    Lockstep (fun c' _ _ => c' = c) c (Program.record event) (Program.record event) :=
  .log (.done rfl)

theorem write (key : String) (value : Value) :
    Lockstep (fun c' _ _ => c' = c) c (Program.write key value) (Program.write key value) :=
  .call fun _ _ _ => .done rfl

theorem merge (key : String) (pairs : List (String × Value)) :
    Lockstep (fun c' _ _ => c' = c) c (Program.merge key pairs) (Program.merge key pairs) :=
  .call fun _ _ _ => .done rfl

theorem delete (key : String) :
    Lockstep (fun c' _ _ => c' = c) c (Program.delete key) (Program.delete key) :=
  .call fun _ _ _ => .done rfl

theorem prompt {prompt : Prompt} (free : ∀ label, prompt ≠ Verb.passwordPrompt label) :
    Lockstep (fun c' a a' => c' = c ∧ a = a') c (Program.prompt prompt) (Program.prompt prompt) :=
  .ask free fun _ => .done ⟨rfl, rfl⟩

end Lockstep

/-- Whether two worlds are the same up to the passwords in their stores. -/
structure World.Twins (w w' : World) : Prop where
  stores : w.backend.store.blanked = w'.backend.store.blanked
  faults : w.backend.faults = w'.backend.faults
  calls : w.backend.calls = w'.backend.calls
  events : w.events = w'.events

namespace World.Twins

variable {w w' : World}

theorem record (twins : w.Twins w') (event : Event) : (w.record event).Twins (w'.record event) :=
  { twins with events := congrArg (· ++ [event]) twins.events }

/-- One call on twins fails on both or succeeds on both, and leaves twins. -/
theorem call (twins : w.Twins w') (request : StoreCall) :
    (∃ error b b', w.backend.call request = (.error error, b) ∧ w'.backend.call request = (.error error, b') ∧
      World.Twins { w with backend := b } { w' with backend := b' }) ∨
    (∃ b b', w.backend.call request = (.ok (w.backend.store.perform request).1, b) ∧
      w'.backend.call request = (.ok (w'.backend.store.perform request).1, b') ∧
      World.Twins { w with backend := b } { w' with backend := b' }) := by
  have calls := twins.calls
  cases fault : w.backend.faults w.backend.calls request with
  | some message =>
    have fault' : w'.backend.faults w'.backend.calls request = some message := by
      rw [← twins.faults, ← calls, fault]
    refine .inl ⟨_, _, _, Backend.call_of_fault fault, Backend.call_of_fault fault', ?_⟩
    exact { twins with calls := congrArg (· + 1) calls }
  | none =>
    have fault' : w'.backend.faults w'.backend.calls request = none := by
      rw [← twins.faults, ← calls, fault]
    refine .inr ⟨_, _, Backend.call_of_no_fault fault, Backend.call_of_no_fault fault', ?_⟩
    exact
      { stores := Store.blanked_perform_congr twins.stores request
        faults := twins.faults
        calls := congrArg (· + 1) calls
        events := twins.events }

end World.Twins

variable {α β : Type} {agree : String → α → β → Prop} {c : String} {p : Program α} {q : Program β}
  {w w' : World}

/-- Whether two programs came equally far, with the rest still in lockstep. -/
inductive Outcome.Alike (agree : String → α → β → Prop) (c : String) : Outcome α → Outcome β → Prop
  | finished {a b} (result : agree c a b) : Alike agree c (.finished a) (.finished b)
  | waiting {prompt k k'} (rest : Lockstep agree c (.ask prompt k) (.ask prompt k')) :
    Alike agree c (.waiting prompt k) (.waiting prompt k')
  | failed {error} : Alike agree c (.failed error) (.failed error)

/-- Whether two runs came equally far and left twins behind, in the same working directory. -/
structure RunsAlike (agree : String → α → β → Prop) (r : Outcome α × Machine) (r' : Outcome β × Machine) :
    Prop where
  outcome : r.1.Alike agree r.2.cwd r'.1
  twins : r.2.world.Twins r'.2.world
  cwd : r.2.cwd = r'.2.cwd

/-- Whether two dialogues came to the same failure or to results that agree, and left twins behind. -/
structure DialoguesAlike (agree : String → α → β → Prop) (d : Dialogue α) (d' : Dialogue β) : Prop where
  result : (∃ error, d.result = .error error ∧ d'.result = .error error) ∨
    (∃ a b, d.result = .ok a ∧ d'.result = .ok b ∧ agree d.machine.cwd a b)
  twins : d.machine.world.Twins d'.machine.world
  cwd : d.machine.cwd = d'.machine.cwd

namespace Lockstep

/-- Programs in lockstep run alike on twins. -/
theorem run (first : Lockstep agree c p q) (twins : w.Twins w') :
    RunsAlike agree (p.run ⟨w, c⟩) (q.run ⟨w', c⟩) := by
  induction first generalizing w w' with
  | done result => exact ⟨.finished result, twins, rfl⟩
  | @call c request k k' next ih =>
    rcases twins.call request with ⟨error, b, b', failed, failed', after⟩ | ⟨b, b', read, read', after⟩
    · simp only [Program.run, failed, failed']
      exact ⟨.failed, after, rfl⟩
    · simp only [Program.run, read, read']
      exact ih _ _ twins.stores after
  | ask free next _ => exact ⟨.waiting (.ask free next), twins, rfl⟩
  | gate next _ => exact ⟨.waiting (.gate next), twins, rfl⟩
  | log _ ih => exact ih (twins.record _)
  | cwd _ ih => exact ih twins
  | enter _ ih => exact ih twins

/-- An answer keeps programs in lockstep that wait for it, if for the password of a path it opens the path
in both stores or in neither. -/
theorem answer {prompt : Prompt} {k : Answer → Program α} {k' : Answer → Program β} {attempt : Answer}
    (waiting : Lockstep agree c (.ask prompt k) (.ask prompt k')) (twins : w.Twins w')
    (opens : ∀ label, prompt = Verb.passwordPrompt label →
      w.backend.store.opens (Path.resolve label c) attempt = w'.backend.store.opens (Path.resolve label c) attempt) :
    RunsAlike agree ((k attempt).run ⟨w, c⟩) ((k' attempt).run ⟨w', c⟩) := by
  cases waiting with
  | ask _ next => exact (next attempt).run twins
  | @gate _ label k k' next =>
    have same := opens label rfl
    rcases twins.call (.get (Key.password (Path.resolve label c))) with
      ⟨error, b, b', failed, failed', after⟩ | ⟨b, b', read, read', after⟩
    · simp only [Program.run, failed, failed']
      exact ⟨.failed, after, rfl⟩
    · simp only [Program.run, read, read', Store.perform]
      change RunsAlike agree ((k (w.backend.store.opens _ attempt)).run _) ((k' (w'.backend.store.opens _ attempt)).run _)
      rw [same]
      exact (next _).run after

/-- Cancelling every prompt tells nothing: no password is missing. -/
theorem cancelled (first : Lockstep agree c p q) (twins : w.Twins w') :
    DialoguesAlike agree (p.converse [] ⟨w, c⟩) (q.converse [] ⟨w', c⟩) := by
  induction first generalizing w w' with
  | done result => exact ⟨.inr ⟨_, _, rfl, rfl, result⟩, twins, rfl⟩
  | @call c request k k' next ih =>
    rcases twins.call request with ⟨error, b, b', failed, failed', after⟩ | ⟨b, b', read, read', after⟩
    · simp only [Program.converse, failed, failed']
      exact ⟨.inl ⟨error, rfl, rfl⟩, after, rfl⟩
    · simp only [Program.converse, read, read']
      exact ih _ _ twins.stores after
  | @ask c prompt k k' free next ih =>
    obtain ⟨result, after, cwd⟩ := ih none twins
    exact ⟨result, after, cwd⟩
  | @gate c label k k' next ih =>
    have same := Store.password?_congr twins.stores (Path.isResolved_resolve label c)
    rw [Store.password?, Store.password?] at same
    rcases twins.call (.get (Key.password (Path.resolve label c))) with
      ⟨error, b, b', failed, failed', after⟩ | ⟨b, b', read, read', after⟩
    · simp only [Program.converse, failed, failed']
      exact ⟨.inl ⟨error, rfl, rfl⟩, after, rfl⟩
    · have closed (v : Value) : Vault.opens v none = !(Vault.password? v).isSome := by
        cases v <;> rfl
      simp only [Program.converse, List.head?_nil, Option.join_none, read, read', Store.perform, closed, same]
      obtain ⟨result, after, cwd⟩ := ih _ after
      exact ⟨result, after, cwd⟩
  | log _ ih => exact ih (twins.record _)
  | cwd _ ih => exact ih twins
  | enter _ ih => exact ih twins

end Lockstep

end TreeShell
