import TreeShell.Proofs.Pipeline.Records
import TreeShell.Proofs.Program.Calls
import TreeShell.Proofs.PromptSoundness

/-! # What a request to a shell comes to

`Shell.calls` lists the calls on the store that a request makes: those that read the working directory, if that is still
to be done, and those of the line. The request leaves the backend that they leave, and its response is an error exactly
if one of them fails, which is then the last (`Shell.request_calls`). What it logs is about the identity of the shell
(`Shell.Settled.served`).
-/

namespace TreeShell

/-- Whether an event is one that a request of an identity logs. -/
inductive Event.OfRequest (identity : String) : Event → Prop
  | line {e : Event} (line : e.OfLine identity) : OfRequest identity e
  | began (cwd command : String) (elevated : Bool) : OfRequest identity (.shellCommand identity cwd command elevated)
  | dropped : OfRequest identity (.promptAbandoned identity)
  | checked (granted : Bool) : OfRequest identity (.elevationAttempt identity granted)
  | refused (error statement : String) : OfRequest identity (.databaseRefused error statement)

/-- Whether a world came from another by some calls, and by events of a request of an identity. -/
structure World.Went (identity : String) (w : World) (calls : List StoreCall) (w' : World) : Prop where
  backend : w'.backend = w.backend.after calls
  events : ∃ logged, w'.events = w.events ++ logged ∧ ∀ e ∈ logged, e.OfRequest identity

namespace World.Went

variable {identity : String} {w w' w'' : World} {calls later : List StoreCall}

theorem refl (identity : String) (w : World) : w.Went identity [] w :=
  ⟨rfl, [], (List.append_nil _).symm, List.forall_mem_nil _⟩

theorem trans (first : w.Went identity calls w') (second : w'.Went identity later w'') :
    w.Went identity (calls ++ later) w'' := by
  obtain ⟨backend, logged, events, kind⟩ := first
  obtain ⟨backend', logged', events', kind'⟩ := second
  refine ⟨?_, logged ++ logged', ?_, List.forall_mem_append.mpr ⟨kind, kind'⟩⟩
  · rw [backend', backend, Backend.after_append]
  · rw [events', events, List.append_assoc]

/-- Logging such events. -/
theorem logs {logged : List Event} (w : World) (kind : ∀ e ∈ logged, e.OfRequest identity) :
    w.Went identity [] { w with events := w.events ++ logged } :=
  ⟨rfl, logged, rfl, kind⟩

end World.Went

/-- The error of the store in a response, if it is one. -/
def storeErrors {α : Type} : Except ShellError α → List StoreError
  | .ok _ => []
  | .error (.store error) => [error]
  | .error _ => []

theorem storeErrors_map {α β : Type} (f : α → β) (response : Except ShellError α) :
    storeErrors (response.map f) = storeErrors response := by
  rcases response with (_ | _ | _) | _ <;> rfl

theorem Context.run_load_ne_waiting (identity : String) (m : Machine) (prompt : Prompt) (rest : Answer → Program Unit) :
    ((load identity).run m).1 ≠ .waiting prompt rest := by
  have root (m : Machine) :
      ((Program.enter "/" (Program.write (Key.cwd identity) (.text "/"))).run m).1 ≠ .waiting prompt rest := by
    rw [Program.run, Program.write, Program.run]
    rcases m.world.backend.call (.set (Key.cwd identity) (.text "/")) with ⟨_ | _, _⟩ <;> rintro ⟨⟩
  rw [load_eq, Program.run]
  rcases m.world.backend.call (.get (Key.cwd identity)) with ⟨_ | v, backend⟩
  · rintro ⟨⟩
  · dsimp only
    split
    · split
      · rintro ⟨⟩
      · exact root _
    · exact root _

namespace Shell

variable {s : Shell} {w : World}

/-- The calls that read the working directory of a shell, unless that was done before. -/
def readCalls (s : Shell) (w : World) : List StoreCall :=
  if s.loaded then [] else (Context.load s.identity).calls ⟨w, s.cwd⟩

/-- The calls that a request to a shell makes. -/
def calls (s : Shell) (w : World) : Request → List StoreCall
  | .exec line granted =>
    s.readCalls w ++
      match s.begin w line granted with
      | (.error _, _, _) => []
      | (.ok (), ready, w) => (Pipeline.run s.identity line granted).calls ⟨w, ready.cwd⟩
  | .resume answer =>
    match s.pending with
    | none => []
    | some rest => (rest answer).calls ⟨w, s.cwd⟩

/-- Reading the working directory makes these calls, logs nothing, and fails exactly if one of them does. -/
theorem ensureLoaded_calls (s : Shell) (w : World) :
    w.Went s.identity (s.readCalls w) (s.ensureLoaded w).2.2 ∧
      w.backend.errors (s.readCalls w) = storeErrors ((s.ensureLoaded w).1.mapError ShellError.store) := by
  have logged := (s.loading w).same.2.2
  rw [ensureLoaded] at logged ⊢
  rw [readCalls]
  split
  · exact ⟨.refl _ w, rfl⟩
  · next unread =>
    rw [if_neg unread, load] at logged
    obtain ⟨backend, errors⟩ := (Context.load s.identity).run_calls ⟨w, s.cwd⟩
    obtain ⟨finishes, fails⟩ := (Context.load s.identity).converse_of_run [] ⟨w, s.cwd⟩
    -- reading waits for no answer, so what it comes to is what its run comes to
    have answered := Context.run_load_ne_waiting s.identity ⟨w, s.cwd⟩
    rw [load]
    generalize (Context.load s.identity).run ⟨w, s.cwd⟩ = ran at backend errors finishes fails answered
    obtain ⟨outcome, m⟩ := ran
    cases outcome with
    | finished a =>
      rw [finishes a rfl] at logged ⊢
      exact ⟨⟨backend, [], logged.trans (List.append_nil _).symm, List.forall_mem_nil _⟩, errors⟩
    | waiting prompt rest => exact absurd rfl (answered prompt rest)
    | failed error =>
      rw [fails error rfl] at logged ⊢
      exact ⟨⟨backend, [], logged.trans (List.append_nil _).symm, List.forall_mem_nil _⟩, errors⟩

/-- A program that runs on a shell makes its calls there. -/
theorem advance_calls (s : Shell) (w : World) (p : Program String) :
    (s.advance w p).world.backend = w.backend.after (p.calls ⟨w, s.cwd⟩) ∧
      w.backend.errors (p.calls ⟨w, s.cwd⟩) = storeErrors (s.advance w p).response := by
  have ran := p.run_calls ⟨w, s.cwd⟩
  rw [advance]
  generalize p.run ⟨w, s.cwd⟩ = r at ran
  obtain ⟨outcome, m⟩ := r
  cases outcome <;> exact ran

/-- A request leaves the backend that its calls leave, and its response tells whether one of them fails. -/
theorem request_calls (filled : s.identity ≠ "") (w : World) (request : Request) :
    (s.request w request).world.backend = w.backend.after (s.calls w request) ∧
      w.backend.errors (s.calls w request) = storeErrors (s.request w request).response := by
  cases request with
  | exec line granted =>
    obtain ⟨went, errors⟩ := s.ensureLoaded_calls w
    rw [Shell.request, calls, Backend.after_append, Backend.errors_append, ← went.backend, errors]
    cases loaded : s.ensureLoaded w with
    | mk result ready =>
      obtain ⟨ready, w'⟩ := ready
      cases result with
      | error error =>
        rw [exec_of_unloaded filled loaded, begin, if_neg filled, loaded]
        exact ⟨rfl, rfl⟩
      | ok _ =>
        rw [exec_of_loaded filled loaded, begin_of_loaded (loading_of loaded).same.1 filled loaded]
        dsimp only
        rw [Except.mapError, storeErrors, List.nil_append]
        exact advance_calls _ _ _
  | resume answer =>
    rw [Shell.request, resume, calls]
    cases s.pending with
    | none => exact ⟨rfl, rfl⟩
    | some rest => exact s.advance_calls w (rest answer)

/-- Whether a shell that waits has suspended what is left of a line that it began. -/
def Settled (s : Shell) : Prop :=
  ∃ t : Talk, t.shell = s ∧ t.Sound

/-- What is known of a request to a shell. -/
structure Served (s : Shell) (w : World) (request : Request) : Prop where
  went : w.Went s.identity (s.calls w request) (s.request w request).world
  met : w.backend.errors (s.calls w request) = storeErrors (s.request w request).response
  store : ∀ error, (s.request w request).response = .error error → ∃ e, error = .store e
  dropped : ∀ error, (s.request w request).response = .error error → (s.request w request).shell.pending = none
  identity : (s.request w request).shell.identity = s.identity
  settled : (s.request w request).shell.Settled

theorem settled_of_idle (nothing : s.pending = none) : s.Settled :=
  ⟨{ shell := s }, rfl, .of_idle nothing⟩

theorem ofRequest_opening (line : String) (granted : Option Elevation) :
    ∀ e ∈ s.opening line granted, e.OfRequest s.identity := by
  unfold opening
  refine List.forall_mem_append.mpr ⟨?_, List.forall_mem_singleton.mpr (.began ..)⟩
  split
  · exact List.forall_mem_singleton.mpr .dropped
  · exact List.forall_mem_nil _

end Shell

/-- What carries a line on logs what a line logs. -/
theorem Talk.Carries.logs {t : Talk} {w : World} {request : Shell.Request} {m : Machine} {before : List Act}
    {course : Course} {left : Program String} (carries : t.Carries w request m before course left) :
    ∀ e ∈ Act.events (t.acts w request), e.OfRequest t.shell.identity := by
  intro e logged
  refine .line (Pipeline.run_logs t.shell.identity course.line course.granted _ _ _ carries.leads e ?_)
  rw [carries.acts, Act.events, List.filterMap_append]
  exact List.mem_append_right _ logged

/-- A request logs that it drops a line, that it begins one, and what that line logs. -/
theorem Talk.Sound.logs {t : Talk} (sound : t.Sound) (filled : t.shell.identity ≠ "") (w : World)
    (request : Shell.Request) :
    ∃ logged, (t.shell.request w request).world.events = w.events ++ logged ∧
      ∀ e ∈ logged, e.OfRequest t.shell.identity := by
  cases sound.turn filled w request with
  | idle nothing =>
    rw [Shell.request_of_idle nothing]
    exact ⟨[], (List.append_nil _).symm, List.forall_mem_nil _⟩
  | unread failed =>
    rw [Shell.request, Shell.exec_of_unloaded filled failed]
    exact ⟨[], (Shell.loading_of failed).same.2.2.trans (List.append_nil _).symm, List.forall_mem_nil _⟩
  | @began line granted s w' course left loaded line_eq carries =>
    obtain ⟨named, -, logged⟩ := (Shell.loading_of loaded).same
    have opening := s.ofRequest_opening line granted
    rw [named] at opening
    refine ⟨s.opening line granted ++ Act.events (t.acts w (.exec line granted)), ?_,
      List.forall_mem_append.mpr ⟨opening, carries.logs⟩⟩
    rw [carries.did.events, ← logged, List.append_assoc]
  | resumed course_eq carries => exact ⟨_, carries.did.events, carries.logs⟩

/-- A request leaves the backend that its calls leave, answers with an error exactly if one of them fails, and then leaves
nothing suspended. -/
theorem Shell.Settled.served {s : Shell} (settled : s.Settled) (filled : s.identity ≠ "") (w : World)
    (request : Request) : s.Served w request := by
  obtain ⟨t, rfl, sound⟩ := settled
  obtain ⟨backend, met⟩ := request_calls filled w request
  obtain ⟨waits, store⟩ := sound.settled filled w request
  have dropped (error : ShellError) (failed : (t.shell.request w request).response = .error error) :
      (t.shell.request w request).shell.pending = none := by
    have quiet : ¬ (t.shell.request w request).shell.isPending = true := by
      intro pending
      obtain ⟨prompt, shown⟩ := waits.mp pending
      cases failed.symm.trans shown
    simpa [isPending] using quiet
  exact
    { went := ⟨backend, sound.logs filled w request⟩
      met := met
      store := store
      dropped := dropped
      identity := sound.identity_step filled w request
      settled := ⟨t.step w request, rfl, sound.step filled w request⟩ }

end TreeShell
