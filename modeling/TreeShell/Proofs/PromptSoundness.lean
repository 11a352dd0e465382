import TreeShell.Proofs.Shell.Talk

/-! # Prompts and answers

A shell waits exactly while the last thing that it showed is a prompt, and an answer goes to that prompt. A new line
takes the place of the one that waits: the log says so once, and apart from that everything goes on as if nothing had
waited, so nothing that was left of the old line is ever done.
-/

namespace TreeShell

open Program (Leads)

/-- Whether an event says that a line was dropped. -/
def Event.isAbandonment : Event → Bool
  | .promptAbandoned _ => true
  | _ => false

/-- Whether a request to a shell is a line. -/
def Shell.Request.isExec : Shell.Request → Bool
  | .exec _ _ => true
  | .resume _ => false

/-- A shell waits exactly if it has shown a prompt, and the only error is that of the store. -/
theorem ShellResult.Leaves.isPending_iff {r : ShellResult} {left : Program String} (leaves : r.Leaves left) :
    (r.shell.isPending = true ↔ ∃ prompt, r.response = .ok (.awaiting prompt)) ∧
      ∀ error, r.response = .error error → ∃ e, error = .store e := by
  cases leaves with
  | ended response pending | failed response pending => simp [Shell.isPending, response, pending]
  | waits response pending => simp [Shell.isPending, response, pending]

/-- No act of a line is logged as the drop of one. -/
theorem Act.filter_isAbandonment {identity : String} {acts : List Act} (own : ∀ a ∈ acts, a.IsOwn identity) :
    (Act.events acts).filter Event.isAbandonment = [] := by
  rw [List.filter_eq_nil_iff]
  intro e member abandons
  cases e with
  | promptAbandoned other => exact Act.not_mem_events own other member
  | _ => cases abandons

namespace Shell

variable {s ready : Shell} {w w' : World}

theorem filter_opening (s : Shell) (line : String) (granted : Option Elevation) :
    (s.opening line granted).filter Event.isAbandonment = if s.isPending then [.promptAbandoned s.identity] else [] := by
  rw [opening, List.filter_append]
  cases s.isPending <;> rfl

/-- What was logged before makes no difference to a run. -/
theorem advance_log (s : Shell) (w : World) (p : Program String) (events : List Event) :
    s.advance { w with events := events } p =
      ⟨(s.advance w p).response, (s.advance w p).shell,
        (s.advance w p).world.backend, events ++ Act.events (p.trace ⟨w, s.cwd⟩)⟩ := by
  obtain ⟨acts, outcome, backend, cwd⟩ :=
    p.run_congr (m := ⟨w, s.cwd⟩) (n := ⟨{ w with events := events }, s.cwd⟩) rfl rfl
  have logged := (p.run_did ⟨{ w with events := events }, s.cwd⟩).events
  rw [acts] at logged
  rw [advance, advance]
  generalize p.run ⟨{ w with events := events }, s.cwd⟩ = ran at outcome backend cwd logged
  generalize p.run ⟨w, s.cwd⟩ = before at outcome backend cwd
  obtain ⟨stop, ⟨⟨left, log⟩, dir⟩⟩ := ran
  obtain ⟨stop', ⟨⟨left', log'⟩, dir'⟩⟩ := before
  obtain rfl : stop = stop' := outcome
  obtain rfl : left = left' := backend
  obtain rfl : dir = dir' := cwd
  obtain rfl : log = _ := logged
  cases stop <;> rfl

theorem ensureLoaded_pending (s : Shell) (w : World) (pending : Option (Answer → Program String)) :
    ({ s with pending := pending } : Shell).ensureLoaded w =
      ((s.ensureLoaded w).1, { (s.ensureLoaded w).2.1 with pending := pending }, (s.ensureLoaded w).2.2) := by
  rw [ensureLoaded, ensureLoaded]
  dsimp only
  split <;> rfl

/-- A line that begins goes on as if nothing had waited. -/
theorem exec_drops (filled : s.identity ≠ "") (loaded : s.ensureLoaded w = (.ok (), ready, w')) (line : String)
    (granted : Option Elevation) :
    ∃ response after backend tail, tail.filter Event.isAbandonment = [] ∧
      ∀ pending, ({ s with pending := pending } : Shell).exec w line granted =
        ⟨response, after, backend,
          w.events ++ (if pending.isSome then [.promptAbandoned s.identity] else []) ++ tail⟩ := by
  obtain ⟨named, -, logged⟩ := (loading_of loaded).same
  generalize program : Pipeline.run s.identity line granted = p
  generalize next : ({ ready with pending := none } : Shell).advance w' p = r
  generalize done : p.trace ⟨w', ready.cwd⟩ = acts
  have own : ∀ a ∈ acts, a.IsOwn s.identity := by
    obtain ⟨left, leads, -⟩ := p.run_leads ⟨w', ready.cwd⟩
    rw [done, ← program] at leads
    exact (Pipeline.run_travels s.identity line granted).own leads
  refine ⟨r.response, r.shell, r.world.backend, .shellCommand s.identity ready.cwd line granted.isSome :: Act.events acts,
    Act.filter_isAbandonment own, fun pending => ?_⟩
  have begun := ensureLoaded_pending s w pending
  rw [loaded] at begun
  rw [exec_of_loaded (s := { s with pending := pending }) filled begun, program, advance_log, next, done, opening, logged,
    named, List.append_assoc, List.append_assoc, List.append_assoc]
  rfl

end Shell

namespace Talk

open Shell (Request)

variable {t : Talk}

/-- After a request a shell waits exactly if it has shown a prompt, and the only error is that of the store. -/
theorem Sound.settled (sound : t.Sound) (filled : t.shell.identity ≠ "") (w : World) (request : Request) :
    ((t.shell.request w request).shell.isPending = true ↔
        ∃ prompt, (t.shell.request w request).response = .ok (.awaiting prompt)) ∧
      ∀ error, (t.shell.request w request).response = .error error → ∃ e, error = .store e := by
  cases sound.turn filled w request with
  | idle nothing => simp [Shell.request_of_idle nothing, Shell.isPending, nothing]
  | unread failed =>
    rw [Shell.request, Shell.exec_of_unloaded filled failed]
    simp [Shell.isPending, (sound.idle_of_unread failed).2]
  | began loaded line_eq carries => exact carries.leaves.isPending_iff
  | resumed course_eq carries => exact carries.leaves.isPending_iff

/-- Over all requests, a line is dropped if another one begins while it waits, and the log says so once. -/
theorem Sound.logged (sound : t.Sound) (filled : t.shell.identity ≠ "") (w : World) (request : Request) :
    ∃ logged, (t.shell.request w request).world.events = w.events ++ logged ∧
      logged.filter Event.isAbandonment =
        if t.shell.isPending && request.isExec then [.promptAbandoned t.shell.identity] else [] := by
  cases sound.turn filled w request with
  | idle nothing =>
    refine ⟨[], ?_, by simp [Request.isExec]⟩
    rw [Shell.request_of_idle nothing, List.append_nil]
  | unread failed =>
    refine ⟨[], ?_, by simp [Shell.isPending, (sound.idle_of_unread failed).1]⟩
    rw [Shell.request, Shell.exec_of_unloaded filled failed, List.append_nil]
    exact (Shell.loading_of failed).same.2.2
  | @began line granted s w' course left loaded line_eq carries =>
    obtain ⟨named, pending, logged⟩ := (Shell.loading_of loaded).same
    have own := (Pipeline.run_travels t.shell.identity _ _).own carries.leads
    rw [carries.acts, List.nil_append] at own
    refine ⟨s.opening line granted ++ Act.events (t.acts w (.exec line granted)), ?_, ?_⟩
    · rw [carries.did.events, ← logged, List.append_assoc]
    · have waits : s.isPending = t.shell.isPending := congrArg Option.isSome pending
      rw [List.filter_append, Shell.filter_opening, Act.filter_isAbandonment own, List.append_nil, waits, named,
        Request.isExec, Bool.and_true]
  | @resumed answer course left course_eq carries =>
    have own := (Pipeline.run_travels t.shell.identity _ _).own carries.leads
    refine ⟨Act.events (t.acts w (.resume answer)), carries.did.events, ?_⟩
    rw [Act.filter_isAbandonment fun a member => own a (List.mem_append_right _ member), Request.isExec, Bool.and_false]
    rfl

/-- Prompts are sound. For the shell of an identity that is signed in, with nothing suspended at first, after any lines
and answers, each on any store with any faults, and for the world that the next request meets:

- the shell then waits exactly if the request has shown a prompt, any error is that of the store, and the log has one
  more record of a dropped line if a line has come while another one waited, and none otherwise;
- an answer for which nothing waits gets a fixed reply and changes nothing;
- a line that gets past reading the working directory comes to the same response, shell and store whatever waited
  before, and but for the one record also to the same log; what is done from then on is done by that line;
- what waits is what is left of the line that began last, after all that it has done, at the prompt that was shown last,
  and an answer goes to that prompt. -/
theorem prompts_sound {shell : Shell} (filled : shell.identity ≠ "") (nothing : shell.pending = none)
    (calls : List (World × Request)) (w : World) :
    let t := ({ shell := shell } : Talk).after calls
    (∀ request,
      ((t.shell.request w request).shell.isPending = true ↔
          ∃ prompt, (t.shell.request w request).response = .ok (.awaiting prompt)) ∧
        (∀ error, (t.shell.request w request).response = .error error → ∃ e, error = .store e) ∧
        ∃ logged, (t.shell.request w request).world.events = w.events ++ logged ∧
          logged.filter Event.isAbandonment =
            if t.shell.isPending && request.isExec then [.promptAbandoned shell.identity] else []) ∧
    (t.shell.isPending = false → ∀ answer,
      t.shell.resume w answer = ⟨.ok (.reply "shell: nothing is waiting for input"), t.shell, w⟩) ∧
    (∀ line granted, (t.shell.ensureLoaded w).1 = .ok () →
      (∃ response after backend tail, tail.filter Event.isAbandonment = [] ∧
        ∀ pending, ({ t.shell with pending := pending } : Shell).exec w line granted =
          ⟨response, after, backend,
            w.events ++ (if pending.isSome then [.promptAbandoned shell.identity] else []) ++ tail⟩) ∧
        ∃ cwd, (t.step w (.exec line granted)).course = some ⟨line, granted, cwd, t.acts w (.exec line granted)⟩) ∧
    ∀ rest, t.shell.pending = some rest →
      ∃ prompt course, t.prompt = some prompt ∧ t.course = some course ∧
        Leads course.cwd (Pipeline.run shell.identity course.line course.granted) course.acts (.ask prompt rest) ∧
        ∀ answer, t.shell.resume w answer = t.shell.advance w (rest answer) ∧
          (t.step w (.resume answer)).course =
            some { course with acts := course.acts ++ .asked prompt answer :: (rest answer).trace ⟨w, t.shell.cwd⟩ } := by
  intro t
  obtain ⟨sound, named⟩ := (Sound.of_idle (t := { shell := shell }) nothing).after filled calls
  have signedIn : t.shell.identity ≠ "" := named ▸ filled
  rw [show shell.identity = t.shell.identity from named.symm]
  refine ⟨fun request => ?_, fun idle answer => ?_, fun line granted loaded => ?_, fun rest pending => ?_⟩
  · obtain ⟨waits, errors⟩ := sound.settled signedIn w request
    exact ⟨waits, errors, sound.logged signedIn w request⟩
  · have nothing : t.shell.pending = none := Option.not_isSome_iff_eq_none.mp (Bool.eq_false_iff.mp idle)
    exact Shell.request_of_idle nothing w answer
  · obtain ⟨⟨_, s, w'⟩, ready⟩ : ∃ ready, t.shell.ensureLoaded w = ready := ⟨_, rfl⟩
    rw [ready] at loaded
    obtain rfl : _ = Except.ok () := loaded
    have same := (Shell.loading_of ready).same.1
    refine ⟨Shell.exec_drops signedIn ready line granted, s.cwd, ?_⟩
    rw [step, courseAfter, Shell.begin_of_loaded same signedIn ready line granted]
  · obtain ⟨prompt, course, shown, begun, leads, -⟩ := sound.waits rest pending
    refine ⟨prompt, course, shown, begun, leads, fun answer => ⟨?_, ?_⟩⟩
    · rw [Shell.resume, pending]
    · rw [step, courseAfter, begun, Option.map_some, Talk.acts, pending, shown]

/-- A shell whose editor waits. -/
def editing (w : World) : Talk :=
  ({ shell := { identity := "alice" } } : Talk).after [(w, .exec "vim f" none)]

/-- While an editor waits, another line begins: the log says once that the first one was dropped. -/
theorem prompts_sound_on_drop :
    let w : World := { backend := { store := .empty } }
    (editing w).shell.isPending = true ∧
      ∃ logged, ((editing w).shell.request w (.exec "ls" none)).world.events = w.events ++ logged ∧
        logged.filter Event.isAbandonment = [.promptAbandoned "alice"] := by
  intro w
  have filled : ({ identity := "alice" } : Shell).identity ≠ "" := by decide
  have waits : (editing w).shell.isPending = true := by decide +kernel
  obtain ⟨step, -⟩ := prompts_sound filled rfl [(w, .exec "vim f" none)] w
  rw [← editing] at step
  obtain ⟨-, -, logged, grows, dropped⟩ := step (.exec "ls" none)
  have begins : (Request.exec "ls" none).isExec = true := rfl
  exact ⟨waits, logged, grows, dropped.trans (if_pos (Bool.and_eq_true_iff.mpr ⟨waits, begins⟩))⟩

end Talk

end TreeShell
