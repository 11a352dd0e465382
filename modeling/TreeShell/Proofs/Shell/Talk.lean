import TreeShell.Proofs.Pipeline.Journeys
import TreeShell.Proofs.Shell.Loading

/-! # What is said to a shell

A shell is told lines and given answers, in any order and on whatever the store has become meanwhile. A `Talk` is a shell
with what was seen of it: the prompt that it showed last, and the course of the line that it began last. A shell that
waits, waits at that prompt, and what it has suspended is what is left of that line after all that it has done
(`Talk.Sound.step`).
-/

namespace TreeShell

open Program (Leads)

namespace Shell

/-- A request to a shell. -/
inductive Request where
  | exec (line : String) (granted : Option Elevation)
  | resume (answer : Answer)
deriving DecidableEq

/-- What a shell makes of a request. -/
def request (s : Shell) (w : World) : Request → ShellResult
  | .exec line granted => s.exec w line granted
  | .resume answer => s.resume w answer

/-- What a shell logs when it begins a line: that it drops another one, and the line. -/
def opening (s : Shell) (line : String) (granted : Option Elevation) : List Event :=
  (if s.isPending then [.promptAbandoned s.identity] else []) ++ [.shellCommand s.identity s.cwd line granted.isSome]

variable {s ready : Shell} {w w' : World}

theorem begin_of_loaded (named : ready.identity = s.identity) (filled : s.identity ≠ "")
    (loaded : s.ensureLoaded w = (.ok (), ready, w')) (line : String) (granted : Option Elevation) :
    s.begin w line granted =
      (.ok (), { ready with pending := none }, { w' with events := w'.events ++ ready.opening line granted }) := by
  obtain ⟨identity, cwd, known, pending⟩ := ready
  rw [begin, if_neg filled, loaded]
  dsimp only
  cases pending with
  | none => rfl
  | some rest =>
    simp only [abandon, isPending, Option.isSome_some, if_true, World.record, opening, List.append_assoc]

/-- A line is begun with nothing suspended. -/
theorem exec_of_loaded (filled : s.identity ≠ "") (loaded : s.ensureLoaded w = (.ok (), ready, w')) (line : String)
    (granted : Option Elevation) :
    s.exec w line granted =
      ({ ready with pending := none } : Shell).advance { w' with events := w'.events ++ ready.opening line granted }
        (Pipeline.run s.identity line granted) := by
  have named := (loading_of loaded).same.1
  rw [exec, begin_of_loaded named filled loaded, ← named]

theorem exec_of_unloaded {error : StoreError} (filled : s.identity ≠ "")
    (failed : s.ensureLoaded w = (.error error, ready, w')) (line : String) (granted : Option Elevation) :
    s.exec w line granted = ⟨.error (.store error), ready, w'⟩ := by
  rw [exec, begin, if_neg filled, failed]

theorem request_of_idle (nothing : s.pending = none) (w : World) (answer : Answer) :
    s.request w (.resume answer) = ⟨.ok (.reply "shell: nothing is waiting for input"), s, w⟩ := by
  rw [request, resume, nothing]

end Shell

/-- What is left of a line when a shell gives a result: nothing, what comes after a prompt, or a call that failed. -/
inductive ShellResult.Leaves (r : ShellResult) : Program String → Prop
  | ended {text : String} (response : r.response = .ok (.reply text)) (pending : r.shell.pending = none) :
    Leaves r (.done text)
  | waits {prompt : Prompt} {rest : Answer → Program String} (response : r.response = .ok (.awaiting prompt))
    (pending : r.shell.pending = some rest) : Leaves r (.ask prompt rest)
  | failed {error : StoreError} {request : StoreCall} {next : Value → Program String}
    (response : r.response = .error (.store error)) (pending : r.shell.pending = none) (key : error.key = request.key) :
    Leaves r (.call request next)

/-- What comes of running a program on a shell, that does the given acts. -/
structure Shell.Advanced (s : Shell) (w : World) (p : Program String) (r : ShellResult) (left : Program String) : Prop where
  leads : Leads s.cwd p (p.trace ⟨w, s.cwd⟩) left
  leaves : r.Leaves left
  did : Machine.Did ⟨w, s.cwd⟩ (p.trace ⟨w, s.cwd⟩) ⟨r.world, r.shell.cwd⟩
  answers : w.backend.store.Answers (p.trace ⟨w, s.cwd⟩)
  identity : r.shell.identity = s.identity
  loaded : r.shell.loaded = s.loaded

theorem Shell.advanced (s : Shell) (w : World) (p : Program String) : ∃ left, s.Advanced w p (s.advance w p) left := by
  obtain ⟨left, leads, stops⟩ := p.run_leads ⟨w, s.cwd⟩
  have did := p.run_did ⟨w, s.cwd⟩
  have answers := p.trace_answers ⟨w, s.cwd⟩
  refine ⟨left, ?_⟩
  rw [advance]
  generalize p.run ⟨w, s.cwd⟩ = ran at stops did
  obtain ⟨outcome, m⟩ := ran
  cases outcome with
  | finished text =>
    obtain rfl := stops
    exact ⟨leads, .ended rfl rfl, did, answers, rfl, rfl⟩
  | waiting prompt rest =>
    obtain rfl := stops
    exact ⟨leads, .waits rfl rfl, did, answers, rfl, rfl⟩
  | failed error =>
    obtain ⟨request, next, rfl, key⟩ := stops
    exact ⟨leads, .failed rfl rfl key, did, answers, rfl, rfl⟩

/-- A line with the working directory in which it began, and what it has done since. -/
structure Course where
  line : String
  granted : Option Elevation
  cwd : String
  acts : List Act

/-- A shell with the prompt that it showed last and the course of the line that it began last. -/
structure Talk where
  shell : Shell
  prompt : Option Prompt := none
  course : Option Course := none

namespace Talk

open Shell (Request)

/-- What a shell does on a request. -/
def acts (t : Talk) (w : World) : Request → List Act
  | .exec line granted =>
    match t.shell.begin w line granted with
    | (.error _, _, _) => []
    | (.ok (), s, w) => (Pipeline.run s.identity line granted).trace ⟨w, s.cwd⟩
  | .resume answer =>
    match t.shell.pending, t.prompt with
    | some rest, some prompt => .asked prompt answer :: (rest answer).trace ⟨w, t.shell.cwd⟩
    | _, _ => []

/-- The course of the line that is the last one begun after a request. -/
def courseAfter (t : Talk) (w : World) : Request → Option Course
  | .exec line granted =>
    match t.shell.begin w line granted with
    | (.error _, _, _) => t.course
    | (.ok (), s, _) => some ⟨line, granted, s.cwd, t.acts w (.exec line granted)⟩
  | .resume answer => t.course.map fun c => { c with acts := c.acts ++ t.acts w (.resume answer) }

/-- The talk after a request. -/
def step (t : Talk) (w : World) (request : Request) : Talk where
  shell := (t.shell.request w request).shell
  prompt :=
    match (t.shell.request w request).response with
    | .ok (.awaiting prompt) => some prompt
    | _ => t.prompt
  course := t.courseAfter w request

/-- The talk after some requests, each with the world that it met. -/
def after (t : Talk) (calls : List (World × Request)) : Talk :=
  calls.foldl (fun t c => t.step c.1 c.2) t

/-- Whether a shell that waits has read the working directory, and has suspended what is left of the line that it began
last, at the prompt that it showed last. -/
structure Sound (t : Talk) : Prop where
  loaded : ∀ rest ∈ t.shell.pending, t.shell.loaded = true
  waits : ∀ rest ∈ t.shell.pending, ∃ prompt course, t.prompt = some prompt ∧ t.course = some course ∧
    Leads course.cwd (Pipeline.run t.shell.identity course.line course.granted) course.acts (.ask prompt rest) ∧
    t.shell.cwd = Act.cwdAfter course.cwd course.acts

/-- What a step comes to that carries a line on from a machine, when the line has done the given acts before, and what is
then left of it. -/
structure Carries (t : Talk) (w : World) (request : Request) (m : Machine) (before : List Act) (course : Course)
    (left : Program String) : Prop where
  course_eq : (t.step w request).course = some course
  acts : course.acts = before ++ t.acts w request
  begins : before ≠ [] → ∃ prompt answer rest, t.acts w request = .asked prompt answer :: rest
  leads : Leads course.cwd (Pipeline.run t.shell.identity course.line course.granted) course.acts left
  cwd : m.cwd = Act.cwdAfter course.cwd before
  did : m.Did (t.acts w request) ⟨(t.shell.request w request).world, (t.shell.request w request).shell.cwd⟩
  answers : m.world.backend.store.Answers (t.acts w request)
  leaves : (t.shell.request w request).Leaves left
  identity : (t.shell.request w request).shell.identity = t.shell.identity
  loaded : (t.shell.request w request).shell.loaded = true

/-- What a request comes to. -/
inductive Turn (t : Talk) (w : World) : Request → Prop
  | idle {answer : Answer} (nothing : t.shell.pending = none) : Turn t w (.resume answer)
  | unread {line : String} {granted : Option Elevation} {error : StoreError} {s : Shell} {w' : World}
    (failed : t.shell.ensureLoaded w = (.error error, s, w')) : Turn t w (.exec line granted)
  | began {line : String} {granted : Option Elevation} {s : Shell} {w' : World} {course : Course} {left : Program String}
    (loaded : t.shell.ensureLoaded w = (.ok (), s, w'))
    (line_eq : course.line = line ∧ course.granted = granted ∧ course.cwd = s.cwd)
    (carries : t.Carries w (.exec line granted) ⟨{ w' with events := w'.events ++ s.opening line granted }, s.cwd⟩ []
      course left) : Turn t w (.exec line granted)
  | resumed {answer : Answer} {course : Course} {left : Program String} (course_eq : t.course = some course)
    (carries : t.Carries w (.resume answer) ⟨w, t.shell.cwd⟩ course.acts
      { course with acts := course.acts ++ t.acts w (.resume answer) } left) : Turn t w (.resume answer)

variable {t : Talk}

/-- A request to a shell that has read the working directory begins a line. -/
theorem turn_exec_of_loaded (filled : t.shell.identity ≠ "") {w w' : World} {s : Shell}
    (loaded : t.shell.ensureLoaded w = (.ok (), s, w')) (line : String) (granted : Option Elevation) :
    t.Turn w (.exec line granted) := by
  have named := (Shell.loading_of loaded).same.1
  have known : s.loaded = true := by
    cases Shell.loading_of loaded with
    | known known => exact known
    | _ => rfl
  have begun := Shell.begin_of_loaded named filled loaded line granted
  have ran : t.shell.request w (.exec line granted) = _ := Shell.exec_of_loaded filled loaded line granted
  obtain ⟨left, advanced⟩ := ({ s with pending := none } : Shell).advanced
    { w' with events := w'.events ++ s.opening line granted } (Pipeline.run t.shell.identity line granted)
  rw [← ran] at advanced
  have acts : t.acts w (.exec line granted) = (Pipeline.run t.shell.identity line granted).trace
      ⟨{ w' with events := w'.events ++ s.opening line granted }, s.cwd⟩ := by
    rw [Talk.acts, begun, ← named]
  have leads := advanced.leads
  have did := advanced.did
  have answers := advanced.answers
  rw [← acts] at leads did answers
  have carries : t.Carries w (.exec line granted) ⟨{ w' with events := w'.events ++ s.opening line granted }, s.cwd⟩ []
      ⟨line, granted, s.cwd, t.acts w (.exec line granted)⟩ left :=
    { course_eq := by rw [step, courseAfter, begun]
      acts := rfl
      begins := absurd rfl
      leads := leads
      cwd := rfl
      did := did
      answers := answers
      leaves := advanced.leaves
      identity := advanced.identity.trans named
      loaded := advanced.loaded.trans known }
  exact .began loaded ⟨rfl, rfl, rfl⟩ carries

/-- An answer to a shell that waits goes to the prompt that it showed last. -/
theorem Sound.turn_resume (sound : t.Sound) {rest : Answer → Program String} (pending : t.shell.pending = some rest)
    (w : World) (answer : Answer) : t.Turn w (.resume answer) := by
  obtain ⟨prompt, course, shown, begun, leads, cwd⟩ := sound.waits rest pending
  have ran : t.shell.request w (.resume answer) = t.shell.advance w (rest answer) := by
    rw [Shell.request, Shell.resume, pending]
  obtain ⟨left, advanced⟩ := t.shell.advanced w (rest answer)
  rw [← ran] at advanced
  have acts : t.acts w (.resume answer) = .asked prompt answer :: (rest answer).trace ⟨w, t.shell.cwd⟩ := by
    rw [Talk.acts, pending, shown]
  have asked : Machine.Did ⟨w, t.shell.cwd⟩ [.asked prompt answer] ⟨w, t.shell.cwd⟩ := ⟨rfl, rfl, (List.append_nil _).symm⟩
  have answers : w.backend.store.Answers (t.acts w (.resume answer)) := by
    rw [acts]
    exact .quiet rfl advanced.answers
  have went := advanced.leads
  rw [cwd] at went
  have carries : t.Carries w (.resume answer) ⟨w, t.shell.cwd⟩ course.acts
      { course with acts := course.acts ++ t.acts w (.resume answer) } left :=
    { course_eq := by rw [step, courseAfter, begun, Option.map_some]
      acts := rfl
      begins := fun _ => ⟨_, _, _, acts⟩
      leads := by
        dsimp only
        rw [acts]
        exact leads.trans (.ask answer (cwd ▸ went))
      cwd := cwd
      did := acts ▸ asked.trans advanced.did
      answers := answers
      leaves := advanced.leaves
      identity := advanced.identity
      loaded := advanced.loaded.trans (sound.loaded rest pending) }
  exact .resumed begun carries

theorem Sound.turn (sound : t.Sound) (filled : t.shell.identity ≠ "") (w : World) (request : Request) : t.Turn w request := by
  cases request with
  | exec line granted =>
    cases loaded : t.shell.ensureLoaded w with
    | mk result ready =>
      cases result with
      | error error => exact .unread loaded
      | ok _ => exact turn_exec_of_loaded filled loaded line granted
  | resume answer =>
    cases pending : t.shell.pending with
    | none => exact .idle pending
    | some rest => exact sound.turn_resume pending w answer

section Carries

variable {w : World} {request : Request} {m : Machine} {before : List Act} {course : Course} {left : Program String}

theorem Carries.cwdAfter (carries : t.Carries w request m before course left) :
    (t.step w request).shell.cwd = Act.cwdAfter course.cwd course.acts := by
  rw [carries.acts, Act.cwdAfter_append, ← carries.cwd]
  exact carries.did.cwd

theorem Carries.sound (carries : t.Carries w request m before course left) : (t.step w request).Sound := by
  refine ⟨fun _ _ => carries.loaded, fun rest pending => ?_⟩
  have leads := carries.leads
  cases carries.leaves with
  | ended _ none => cases none.symm.trans pending
  | failed _ none => cases none.symm.trans pending
  | @waits prompt rest' response waiting =>
    obtain rfl := Option.some.inj (waiting.symm.trans pending)
    rw [← carries.identity] at leads
    exact ⟨prompt, course, by rw [step, response], carries.course_eq, leads, carries.cwdAfter⟩

end Carries

/-- Nothing waits in a shell that has not read the working directory. -/
theorem Sound.idle_of_unread (sound : t.Sound) {w w' : World} {error : StoreError} {s : Shell}
    (failed : t.shell.ensureLoaded w = (.error error, s, w')) : t.shell.pending = none ∧ s.pending = none := by
  have nothing : t.shell.pending = none := by
    rw [Option.eq_none_iff_forall_not_mem]
    intro rest pending
    cases Shell.loading_of failed with
    | failed unread => exact absurd (sound.loaded rest pending) (Bool.eq_false_iff.mp unread)
  exact ⟨nothing, (Shell.loading_of failed).same.2.1.trans nothing⟩

theorem Sound.of_idle (nothing : t.shell.pending = none) : t.Sound := by
  refine ⟨fun rest pending => ?_, fun rest pending => ?_⟩ <;> cases nothing.symm.trans pending

/-- A request leaves a talk sound. -/
theorem Sound.step (sound : t.Sound) (filled : t.shell.identity ≠ "") (w : World) (request : Request) :
    (t.step w request).Sound := by
  cases sound.turn filled w request with
  | idle nothing =>
    refine .of_idle ?_
    rw [Talk.step, Shell.request_of_idle nothing]
    exact nothing
  | unread failed =>
    refine .of_idle ?_
    rw [Talk.step, Shell.request, Shell.exec_of_unloaded filled failed]
    exact (sound.idle_of_unread failed).2
  | began loaded line_eq carries => exact carries.sound
  | resumed course_eq carries => exact carries.sound

theorem Sound.identity_step (sound : t.Sound) (filled : t.shell.identity ≠ "") (w : World) (request : Request) :
    (t.step w request).shell.identity = t.shell.identity := by
  cases sound.turn filled w request with
  | idle nothing => rw [Talk.step, Shell.request_of_idle nothing]
  | unread failed =>
    rw [Talk.step, Shell.request, Shell.exec_of_unloaded filled failed]
    exact (Shell.loading_of failed).same.1
  | began loaded line_eq carries => exact carries.identity
  | resumed course_eq carries => exact carries.identity

/-- Until it has read the working directory, a shell stays at the root. -/
theorem Sound.unread_step (sound : t.Sound) (filled : t.shell.identity ≠ "")
    (unread : t.shell.loaded = false → t.shell.cwd = "/") (w : World) (request : Request)
    (still : (t.step w request).shell.loaded = false) : (t.step w request).shell.cwd = "/" := by
  cases sound.turn filled w request with
  | idle nothing =>
    rw [Talk.step, Shell.request_of_idle nothing] at still ⊢
    exact unread still
  | unread failed =>
    rw [Talk.step, Shell.request, Shell.exec_of_unloaded filled failed]
    cases Shell.loading_of failed with
    | failed unloaded cwd_eq => exact cwd_eq.elim (fun same => same.trans (unread unloaded)) id
  | began loaded line_eq carries => cases carries.loaded.symm.trans still
  | resumed course_eq carries => cases carries.loaded.symm.trans still

theorem Sound.after (sound : t.Sound) (filled : t.shell.identity ≠ "") (calls : List (World × Request)) :
    (t.after calls).Sound ∧ (t.after calls).shell.identity = t.shell.identity := by
  induction calls generalizing t with
  | nil => exact ⟨sound, rfl⟩
  | cons c rest ih =>
    have named := sound.identity_step filled c.1 c.2
    obtain ⟨still, same⟩ := ih (sound.step filled c.1 c.2) (named ▸ filled)
    exact ⟨still, same.trans named⟩

end Talk

end TreeShell
