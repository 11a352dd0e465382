import Mathlib.Logic.Function.Basic
import TreeShell.Proofs.Chat.Steps
import TreeShell.Proofs.Pipeline.Bans

/-! # The lines of a chat

A line that waits is a function of the answer, which does not tell where it comes from. To say whose line does what,
the chat is watched: beside it goes, for every identity, the line that waits, with the request that started it, the
elevation that it was granted, the part in which it waits and the parts to come. From this `Watched.deed` says what
line a step carries on, and through which parts. That is what the chat does (`Faithful.carried`, `Faithful.idle`), and
every line was started, with the elevation that it has, by one request of its own identity (`made_watch`).
-/

namespace TreeShell

open Pipeline

/-- What a shell answers with when a line stops. -/
def Pipeline.Stop.response : Stop → Except ShellError Response
  | .ended text => .ok (.reply text)
  | .waits prompt _ => .ok (.awaiting prompt)
  | .failed error => .error (.store error)

namespace Shell

variable {s : Shell} {w : World}

/-- A shell stops where its line does. -/
theorem advance_eq {p : Program String} {identity : String} {granted : Option Elevation} {stop : Stop} {m : Machine}
    (ran : p.run ⟨w, s.cwd⟩ = (stop.outcome identity granted, m)) :
    s.advance w p =
      ⟨stop.response, { s with cwd := m.cwd, pending := stop.suspended?.map fun r => r.remainder identity granted },
        m.world⟩ := by
  rw [advance, ran]
  cases stop <;> rfl

end Shell

namespace Chat

/-- The request that started a line, with the elevation that the line was granted. -/
structure Launch where
  identity : String
  message : String
  password : Answer
  granted : Option Elevation

/-- A line that waits. -/
structure Line where
  launch : Launch
  suspended : Suspended

/-- What is left of a line that waits: it goes on under the elevation that it was granted. -/
def Line.remainder (l : Line) : Answer → Program String :=
  l.suspended.remainder l.launch.identity l.launch.granted

/-- What a step does with a line. -/
structure Deed where
  launch : Launch
  progress : Progress

/-- The line that waits after a deed. -/
def Deed.line? (d : Deed) : Option Line :=
  d.progress.stop.suspended?.map fun s => ⟨d.launch, s⟩

/-- A chat with the line of every identity that waits. -/
structure Watched where
  chat : Chat
  lines : String → Option Line := fun _ => none

namespace Watched

/-- What a step does with a line, if it starts one or carries one on. -/
def deed (w : Watched) : Step → Option Deed
  | .handle identity message password =>
    match w.chat.admits identity message password with
    | none => none
    | some (granted, c) =>
      match (c.shellOf identity).begin c.world (commandOf message) granted with
      | (.error _, _, _) => none
      | (.ok (), s, world) =>
        some ⟨⟨identity, message, password, granted⟩,
          carry identity granted (CommandLine.parse (commandOf message)).parts ⟨"", none⟩ ⟨world, s.cwd⟩⟩
  | .respond identity answer =>
    (w.lines identity).map fun l =>
      ⟨l.launch, l.suspended.carry l.launch.identity l.launch.granted answer
        ⟨w.chat.world, (w.chat.shellOf identity).cwd⟩⟩

/-- A watched chat after a step. -/
def step (w : Watched) (s : Step) : Watched where
  chat := (w.chat.step s).2
  lines :=
    match w.deed s with
    | none => w.lines
    | some d => Function.update w.lines s.identity d.line?

end Watched

/-- A chat after some steps, watched from its start. -/
def watch (start : Chat) (steps : List Step) : Watched :=
  steps.foldl Watched.step { chat := start }

theorem watch_concat (start : Chat) (steps : List Step) (s : Step) :
    start.watch (steps ++ [s]) = (start.watch steps).step s := by
  rw [watch, List.foldl_append]
  rfl

/-- Watching a chat changes nothing. -/
theorem chat_watch (start : Chat) (steps : List Step) : (start.watch steps).chat = start.after steps := by
  induction steps using List.reverseRecOn with
  | nil => rfl
  | append_singleton steps s ih => rw [watch_concat, after_concat, ← ih, Watched.step]

namespace Watched

/-- Whether the lines that are seen waiting are what the shells have suspended. -/
structure Faithful (w : Watched) : Prop where
  named : ∀ identity, (w.chat.shellOf identity).identity = identity
  pending : ∀ identity, (w.chat.shellOf identity).pending = (w.lines identity).map Line.remainder
  own : ∀ identity, ∀ l ∈ w.lines identity, l.launch.identity = identity ∧ identity ≠ ""

/-- What a step comes to that starts a line or carries one on. -/
structure Carried (w : Watched) (s : Step) (d : Deed) : Prop where
  own : d.launch.identity = s.identity ∧ s.identity ≠ ""
  response : (w.chat.step s).1 = d.progress.stop.response.map w.chat.frame
  world : (w.chat.step s).2.world = d.progress.machine.world
  named : ((w.chat.step s).2.shellOf s.identity).identity = s.identity
  pending : ((w.chat.step s).2.shellOf s.identity).pending = d.line?.map Line.remainder
  others : ∀ identity, identity ≠ s.identity → (w.chat.step s).2.shellOf identity = w.chat.shellOf identity

/-- What a step comes to that does nothing with any line. -/
structure Idle (w : Watched) (s : Step) : Prop where
  bans : (w.chat.step s).2.world.backend.store.HasBans w.chat.world.backend.store.bans
  named : ∀ identity, ((w.chat.step s).2.shellOf identity).identity = (w.chat.shellOf identity).identity
  pending : ∀ identity, ((w.chat.step s).2.shellOf identity).pending = (w.chat.shellOf identity).pending

variable {w : Watched} {s : Step} {d : Deed}

/-- A line that waits after a step waited before, or the step has left it waiting. -/
theorem mem_lines_step {identity : String} {l : Line} (waits : l ∈ (w.step s).lines identity) :
    l ∈ w.lines identity ∨ ∃ d, w.deed s = some d ∧ identity = s.identity ∧ l ∈ d.line? := by
  rw [step] at waits
  cases found : w.deed s with
  | none =>
    rw [found] at waits
    exact .inl waits
  | some d =>
    rw [found] at waits
    dsimp only at waits
    by_cases own : identity = s.identity
    · rw [own, Function.update_self] at waits
      exact .inr ⟨d, rfl, own, waits⟩
    · rw [Function.update_of_ne own] at waits
      exact .inl waits

/-- A step carries a line on if it is handed to the shell of its identity, and that stops where the line does. -/
theorem carried_of_delegate {c : Chat} {request : Shell → World → ShellResult} (shell : Shell)
    (own : d.launch.identity = s.identity ∧ s.identity ≠ "") (named : shell.identity = s.identity)
    (same : w.chat.SameShells c) (stepped : w.chat.step s = c.delegate s.identity request)
    (ran : request (c.shellOf s.identity) c.world =
      ⟨d.progress.stop.response,
        { shell with
          cwd := d.progress.machine.cwd
          pending := d.progress.stop.suspended?.map fun r => r.remainder d.launch.identity d.launch.granted },
        d.progress.machine.world⟩) : w.Carried s d := by
  have frames : c.frame = w.chat.frame := by
    funext r
    cases r <;> simp only [frame, same.hint]
  have waits : d.line?.map Line.remainder =
      d.progress.stop.suspended?.map fun r => r.remainder d.launch.identity d.launch.granted := by
    rw [Deed.line?, Option.map_map]
    rfl
  rw [← waits] at ran
  rw [delegate, ran, frames] at stepped
  refine ⟨own, congrArg Prod.fst stepped, ?_, ?_, ?_, fun identity differs => ?_⟩
  · rw [stepped]
    rfl
  · rw [stepped, shellOf_withShell, if_pos named.symm, named]
  · rw [stepped, shellOf_withShell, if_pos named.symm]
  · rw [stepped, shellOf_withShell, if_neg (named ▸ differs), same.shellOf]

/-- A step does nothing with a line if it is handed to the shell of its identity, and that goes on as before. -/
theorem idle_of_delegate {c : Chat} {request : Shell → World → ShellResult} (same : w.chat.SameShells c)
    (stepped : w.chat.step s = c.delegate s.identity request)
    (named : (w.chat.shellOf s.identity).identity = s.identity)
    (stays : (request (c.shellOf s.identity) c.world).shell.identity = s.identity ∧
      (request (c.shellOf s.identity) c.world).shell.pending = (w.chat.shellOf s.identity).pending)
    (bans : (request (c.shellOf s.identity) c.world).world.backend.store.HasBans w.chat.world.backend.store.bans) :
    w.Idle s := by
  rw [delegate] at stepped
  refine ⟨?_, fun identity => ?_, fun identity => ?_⟩
  · rw [stepped]
    exact bans
  · rw [stepped, shellOf_withShell, stays.1]
    split
    · next own => rw [stays.1, own, named]
    · rw [same.shellOf]
  · rw [stepped, shellOf_withShell, stays.1]
    split
    · next own => rw [stays.2, own]
    · rw [same.shellOf]

namespace Faithful

/-- What is seen of a step is what it comes to. -/
theorem carried (faithful : w.Faithful) (found : w.deed s = some d) : w.Carried s d := by
  cases s with
  | handle identity message password =>
    rw [deed] at found
    split at found
    · cases found
    · next granted c admits =>
      have admitted := admitted_of_admits admits
      have named : (c.shellOf identity).identity = identity := by rw [admitted.same.shellOf, faithful.named]
      have begun := ((c.shellOf identity).begin_identity c.world (commandOf message) granted).trans named
      split at found
      · cases found
      · next shell world ready =>
        obtain rfl := Option.some.inj found
        rw [ready] at begun
        refine carried_of_delegate shell ⟨rfl, admitted.named⟩ begun admitted.same admitted.handled ?_
        dsimp only at begun ⊢
        rw [Step.identity, Shell.exec, ready]
        refine (congrArg (shell.advance world) ?_).trans (Shell.advance_eq (run_runParts ..))
        rw [begun, run_eq_runParts]
  | respond identity answer =>
    obtain ⟨l, waits, rfl⟩ := Option.map_eq_some_iff.mp found
    obtain ⟨own, filled⟩ := faithful.own identity l waits
    have pending := faithful.pending identity
    rw [waits] at pending
    refine carried_of_delegate (w.chat.shellOf identity) ⟨own, filled⟩ (faithful.named identity) (.refl _) (if_neg filled) ?_
    rw [Step.identity, Shell.resume, pending]
    exact Shell.advance_eq (run_remainder ..)

/-- A step that is not seen to do anything with a line does nothing with one. -/
theorem idle (faithful : w.Faithful) (none : w.deed s = none) : w.Idle s := by
  cases s with
  | handle identity message password =>
    rw [deed] at none
    split at none
    · next refused =>
      have same := handle_of_not_admitted refused
      exact ⟨congrArg Store.bans same.store, fun other => congrArg Shell.identity (same.shellOf other),
        fun other => congrArg Shell.pending (same.shellOf other)⟩
    · next granted c admits =>
      have admitted := admitted_of_admits admits
      have named := (c.shellOf identity).begin_identity c.world (commandOf message) granted
      have pending := (c.shellOf identity).pending_begin c.world (commandOf message) granted
      have bans := (c.shellOf identity).begin_keepsBans c.world (commandOf message) granted
      split at none
      · next error shell world failed =>
        -- the working directory could not be read: a line that waited before still waits
        rw [failed] at named pending bans
        refine idle_of_delegate admitted.same admitted.handled (faithful.named identity) ?_ ?_
        · rw [Step.identity, Shell.exec, failed]
          dsimp only at named pending ⊢
          rw [named, pending, admitted.same.shellOf]
          exact ⟨faithful.named identity, rfl⟩
        · rw [Step.identity, Shell.exec, failed, ← admitted.same.store]
          exact bans
      · cases none
  | respond identity answer =>
    have nothing : (w.chat.shellOf identity).pending = Option.none := by
      rw [faithful.pending, Option.map_eq_none_iff.mp none]
      rfl
    by_cases filled : identity = ""
    · have unchanged : (w.chat.step (.respond identity answer)).2 = w.chat := by rw [Chat.step, respond, if_pos filled]
      refine ⟨?_, fun other => ?_, fun other => ?_⟩ <;> rw [unchanged]
      exact rfl
    · refine idle_of_delegate (.refl _) (if_neg filled) (faithful.named identity) ?_ ?_
      all_goals rw [Step.identity, Shell.resume, nothing]
      · exact ⟨faithful.named identity, nothing⟩
      · rfl

/-- Watching stays faithful. -/
theorem step (faithful : w.Faithful) (s : Step) : (w.step s).Faithful := by
  have own : ∀ identity, ∀ l ∈ (w.step s).lines identity, l.launch.identity = identity ∧ identity ≠ "" := by
    intro identity l waits
    rcases mem_lines_step waits with before | ⟨d, found, same, left⟩
    · exact faithful.own identity l before
    · obtain ⟨r, -, rfl⟩ := Option.map_eq_some_iff.mp left
      exact same ▸ (faithful.carried found).own
  cases found : w.deed s with
  | none =>
    have idle := faithful.idle found
    refine ⟨fun identity => (idle.named identity).trans (faithful.named identity), fun identity => ?_, own⟩
    rw [Watched.step, found]
    exact (idle.pending identity).trans (faithful.pending identity)
  | some d =>
    have carried := faithful.carried found
    refine ⟨fun identity => ?_, fun identity => ?_, own⟩
    all_goals
      rw [Watched.step, found]
      dsimp only
      by_cases same : identity = s.identity
    · rw [same]
      exact carried.named
    · rw [carried.others identity same]
      exact faithful.named identity
    · rw [same, carried.pending, Function.update_self]
    · rw [carried.others identity same, Function.update_of_ne same]
      exact faithful.pending identity

end Faithful

/-! ## Whose elevation it is -/

/-- Whether every line that waits in a part without elevation keeps the bans there. -/
def KeepsBans (w : Watched) : Prop :=
  ∀ identity, ∀ l ∈ w.lines identity, l.suspended.KeepsBans l.launch.granted

/-- A step keeps the bans if it comes through no part with elevation, and the line that it leaves waiting will. -/
theorem KeepsBans.deed (keeps : w.KeepsBans) (found : w.deed s = some d) :
    d.progress.KeepsBans d.launch.granted w.chat.world.backend.store.bans := by
  cases s with
  | handle identity message password =>
    rw [Watched.deed] at found
    split at found
    · cases found
    · next granted c admits =>
      have bans := (c.shellOf identity).begin_keepsBans c.world (commandOf message) granted
      rw [(admitted_of_admits admits).same.store] at bans
      split at found
      · cases found
      · next shell world ready =>
        obtain rfl := Option.some.inj found
        rw [ready] at bans
        have same : world.backend.store.bans = w.chat.world.backend.store.bans := bans
        dsimp only
        rw [← same]
        exact carry_keepsBans _ _ ⟨world, shell.cwd⟩
  | respond identity answer =>
    obtain ⟨l, waits, rfl⟩ := Option.map_eq_some_iff.mp found
    exact Suspended.carry_keepsBans (keeps identity l waits) answer ⟨w.chat.world, (w.chat.shellOf identity).cwd⟩

theorem KeepsBans.step (keeps : w.KeepsBans) (s : Step) : (w.step s).KeepsBans := by
  intro identity l waits
  rcases mem_lines_step waits with before | ⟨d, found, -, left⟩
  · exact keeps identity l before
  · obtain ⟨r, stopped, rfl⟩ := Option.map_eq_some_iff.mp left
    exact (keeps.deed found).later r stopped

end Watched

/-- Whether a line was started by one of some requests to a chat: by the message that it is said to come from, which
was granted the elevation that the line has. -/
def Launch.Made (l : Launch) (start : Chat) (steps : List Step) : Prop :=
  ∃ before later c, steps = before ++ .handle l.identity l.message l.password :: later ∧
    (start.after before).admits l.identity l.message l.password = some (l.granted, c)

variable {start : Chat} {steps : List Step} {l : Launch}

theorem Launch.Made.concat (made : l.Made start steps) (s : Step) : l.Made start (steps ++ [s]) := by
  obtain ⟨before, later, c, rfl, admits⟩ := made
  exact ⟨before, later ++ [s], c, by rw [List.append_assoc, List.cons_append], admits⟩

namespace Watched

/-- Every line that a step carries on was started by a request so far, or by this one. -/
theorem deed_made {s : Step} {d : Deed} {w : Watched} (same : w.chat = start.after steps)
    (made : ∀ identity, ∀ l ∈ w.lines identity, l.launch.Made start steps) (found : w.deed s = some d) :
    d.launch.Made start (steps ++ [s]) := by
  cases s with
  | handle identity message password =>
    rw [deed] at found
    split at found
    · cases found
    · next granted c admits =>
      split at found
      · cases found
      · obtain rfl := Option.some.inj found
        exact ⟨steps, [], c, rfl, same ▸ admits⟩
  | respond identity answer =>
    obtain ⟨l, waits, rfl⟩ := Option.map_eq_some_iff.mp found
    exact (made identity l waits).concat _

end Watched

/-- A chat in which nothing waits at first is watched faithfully. -/
theorem faithful_watch (fresh : start.shells = []) (steps : List Step) : (start.watch steps).Faithful := by
  have idle (identity : String) : start.shellOf identity = { identity := identity } := by
    rw [shellOf, fresh]
    rfl
  induction steps using List.reverseRecOn with
  | nil =>
    exact ⟨fun identity => congrArg Shell.identity (idle identity), fun identity => congrArg Shell.pending (idle identity),
      fun _ l waits => absurd waits (Option.not_mem_none l)⟩
  | append_singleton steps s ih =>
    rw [watch_concat]
    exact ih.step s

theorem keepsBans_watch (start : Chat) (steps : List Step) : (start.watch steps).KeepsBans := by
  induction steps using List.reverseRecOn with
  | nil => exact fun _ _ => nofun
  | append_singleton steps s ih =>
    rw [watch_concat]
    exact ih.step s

/-- Every line that waits was started by one of the requests so far. -/
theorem made_watch (start : Chat) (steps : List Step) :
    ∀ identity, ∀ l ∈ (start.watch steps).lines identity, l.launch.Made start steps := by
  induction steps using List.reverseRecOn with
  | nil => exact fun _ _ => nofun
  | append_singleton steps s ih =>
    rw [watch_concat]
    intro identity l waits
    rcases Watched.mem_lines_step waits with before | ⟨d, found, -, left⟩
    · exact (ih identity l before).concat s
    · obtain ⟨r, -, rfl⟩ := Option.map_eq_some_iff.mp left
      exact Watched.deed_made (chat_watch start steps) ih found

end Chat

end TreeShell
