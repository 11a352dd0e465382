import TreeShell.Proofs.Store.Orderly
import TreeShell.Shell

/-! # Shells that take turns on one store

Identities work on a common store at the same time: a line waits at a prompt while others run theirs, and goes on
when its answer comes. What verbs keep whatever happens to the store while they wait, lines without elevation keep
too, and with them every such run from the empty store (`Interleaved.keeps`).
-/

namespace TreeShell

open Verb
open Program (Keeps)

variable {ι : Type} {I : ι → Store → Prop} {i : ι} {V : Value → Prop} {identity : String}

theorem VerbCall.reply_keeps {elevation : Option Elevation} (upkeep : Upkeep I V identity elevation.isSome)
    (call : VerbCall) : (call.reply identity elevation).Keeps I fun _ => True :=
  (call.keeps upkeep).bind fun _ _ => .pure trivial

theorem Command.program_keeps (upkeep : Upkeep I V identity false) {command : Command}
    (free : command.isModeration = false) (stdin : String) : (command.program identity stdin none).Keeps I fun _ => True := by
  have replies (call : VerbCall) : (call.reply identity none).Keeps I fun _ => True := call.reply_keeps upkeep
  cases command with
  | verb call =>
    cases call with
    | cat label =>
      rw [program]
      split
      · exact replies (.cat label)
      · exact .pure trivial
    | _ => exact replies _
  | pwd => exact Keeps.workingDirectory
  | echo args | help => exact .pure trivial
  | _ => exact absurd free nofun

namespace Pipeline

theorem runWords_keeps (upkeep : Upkeep I V identity false) (words : List String) (stdin : String) :
    (runWords identity words stdin none).Keeps I fun r => r.elevation = none := by
  unfold runWords
  dsimp only
  cases Command.ofName? (words.headD "") words.tail with
  | none => exact .pure rfl
  | some command =>
    dsimp only
    split
    · exact .pure rfl
    · next allowed =>
      have free : command.isModeration = false := by simpa using allowed
      exact (command.program_keeps upkeep free stdin).bind fun _ _ => .pure rfl

/-- Without elevation a stage keeps what verbs keep, and has none afterwards. -/
theorem runStage_keeps (upkeep : Upkeep I V identity false) (stage stdin : String) :
    (runStage identity stage stdin none).Keeps I fun r => r.elevation = none := by
  unfold runStage
  split
  · exact runWords_keeps upkeep [] stdin
  · split
    · exact .pure rfl
    · exact runWords_keeps upkeep _ stdin

theorem runStages_keeps (upkeep : Upkeep I V identity false) (stages : List String) {result : StageResult}
    (unelevated : result.elevation = none) :
    (runStages identity none stages result).Keeps I fun r => r.elevation = none := by
  induction stages generalizing result with
  | nil => exact .pure unelevated
  | cons stage rest ih => exact (runStage_keeps upkeep stage result.output).bind fun _ still => ih still

/-- A redirect keeps what verbs keep with the elevation that it has. -/
theorem writeTarget_keeps {result : StageResult} (upkeep : Upkeep I V identity result.elevation.isSome)
    (target : String) : (writeTarget identity target result).Keeps I fun _ => True := by
  refine (VerbCall.keeps upkeep (.redirect target result.output)).bind fun written _ => ?_
  cases written with
  | ok _ => exact .pure trivial
  | error refusal => exact .record _

/-- A line without elevation keeps what verbs keep. -/
theorem run_keeps (upkeep : Upkeep I V identity false) (line : String) :
    (run identity line none).Keeps I fun _ => True := by
  refine (runStages_keeps upkeep (CommandLine.parse line).stages rfl).bind fun result unelevated => ?_
  cases (CommandLine.parse line).target with
  | none => exact .pure trivial
  | some target =>
    rw [← Option.isSome_none (α := Elevation), ← unelevated] at upkeep
    exact (writeTarget_keeps upkeep target).bind fun _ _ => .pure trivial

end Pipeline

theorem Context.load_keeps {elevated : Bool} (upkeep : Upkeep I V identity elevated) :
    (Context.load identity).Keeps I fun _ => True := by
  have remembers : (do
      Program.changeDirectory "/"
      Program.write (Key.cwd identity) (.text "/")).Keeps I fun _ => True :=
    (Keeps.changeDirectory "/").bind fun _ _ => .write fun holds => upkeep.remember holds "/"
  refine (Keeps.fetch (Q := fun _ => True) fun _ => trivial).bind fun v _ => ?_
  split
  · split
    · exact .changeDirectory _
    · exact remembers
  · exact remembers

namespace Shell

variable {s : Shell} {w : World}

/-- Whether the rest of a suspended line keeps every property of a family, if a line is suspended. -/
def PendingKeeps (s : Shell) (I : ι → Store → Prop) : Prop :=
  ∀ rest ∈ s.pending, ∀ answer, (rest answer).Keeps I fun _ => True

theorem advance_keeps {p : Program String} (keeps : p.Keeps I fun _ => True) (s : Shell) (holds : I i w.backend.store) :
    I i (s.advance w p).world.backend.store ∧ (s.advance w p).shell.PendingKeeps I := by
  have run := keeps.run ⟨w, s.cwd⟩ holds
  rw [advance]
  generalize p.run ⟨w, s.cwd⟩ = ran at run
  obtain ⟨outcome, m⟩ := ran
  cases outcome with
  | finished text => exact ⟨run.1, nofun⟩
  | waiting prompt resume => exact ⟨run.1, fun rest pending => Option.some.inj pending ▸ run.2⟩
  | failed error => exact ⟨run.1, nofun⟩

/-- When everything is ready for a line, no other line waits. -/
theorem pending_begin (s : Shell) (w : World) (line : String) (granted : Option Elevation) :
    (s.begin w line granted).2.1.pending =
      match (s.begin w line granted).1 with
      | .error _ => s.pending
      | .ok _ => none := by
  have loaded : (s.ensureLoaded w).2.1.pending = s.pending := by
    rw [ensureLoaded]
    split <;> rfl
  unfold begin
  split
  · rfl
  · generalize s.ensureLoaded w = ready at loaded
    obtain ⟨result, s', w'⟩ := ready
    cases result with
    | error e => exact loaded
    | ok _ =>
      dsimp only [abandon]
      split
      · rfl
      · next idle => simpa [isPending] using idle

theorem begin_identity (s : Shell) (w : World) (line : String) (granted : Option Elevation) :
    (s.begin w line granted).2.1.identity = s.identity := by
  have loaded : (s.ensureLoaded w).2.1.identity = s.identity := by
    rw [ensureLoaded]
    split <;> rfl
  unfold begin
  split
  · rfl
  · generalize s.ensureLoaded w = ready at loaded
    obtain ⟨result, s', w'⟩ := ready
    cases result with
    | error e => exact loaded
    | ok _ =>
      dsimp only [abandon]
      split <;> exact loaded

theorem PendingKeeps.begin (pending : s.PendingKeeps I) (w : World) (line : String) (granted : Option Elevation) :
    (s.begin w line granted).2.1.PendingKeeps I := by
  rw [PendingKeeps, pending_begin]
  split
  · exact pending
  · exact nofun

variable (upkeep : Upkeep I V s.identity false)
include upkeep

/-- Getting ready for a line keeps what verbs keep. -/
theorem begin_keeps (line : String) (granted : Option Elevation) (holds : I i w.backend.store) :
    I i (s.begin w line granted).2.2.backend.store := by
  have loaded : I i (s.ensureLoaded w).2.2.backend.store := by
    rw [ensureLoaded]
    split
    · exact holds
    · exact (Context.load_keeps upkeep).converse [] ⟨w, s.cwd⟩ holds
  unfold begin
  split
  · exact holds
  · generalize s.ensureLoaded w = ready at loaded
    obtain ⟨result, s', w'⟩ := ready
    cases result with
    | error e => exact loaded
    | ok _ =>
      dsimp only [abandon]
      split <;> exact loaded

/-- A line without elevation keeps what verbs keep up to where it stops, and so will the rest. -/
theorem exec_keeps (line : String) (holds : I i w.backend.store) (pending : s.PendingKeeps I) :
    I i (s.exec w line none).world.backend.store ∧ (s.exec w line none).shell.PendingKeeps I := by
  have begun := begin_keeps upkeep line none holds
  have same := s.begin_identity w line none
  have kept := pending.begin w line none
  rw [exec]
  generalize s.begin w line none = ready at begun same kept
  obtain ⟨result, s', w'⟩ := ready
  cases result with
  | error e => exact ⟨begun, kept⟩
  | ok _ =>
    dsimp only at same ⊢
    rw [← same] at upkeep
    exact advance_keeps (Pipeline.run_keeps upkeep line) s' begun

theorem execute_keeps (line : String) (holds : I i w.backend.store) (pending : s.PendingKeeps I) (answers : List Answer) :
    I i (s.execute w line none answers).2.2.backend.store ∧ (s.execute w line none answers).2.1.PendingKeeps I := by
  have begun := begin_keeps upkeep line none holds
  have same := s.begin_identity w line none
  have kept := pending.begin w line none
  rw [execute]
  generalize s.begin w line none = ready at begun same kept
  obtain ⟨result, s', w'⟩ := ready
  cases result with
  | error e => exact ⟨begun, kept⟩
  | ok _ =>
    dsimp only at same ⊢
    rw [← same] at upkeep
    exact ⟨(Pipeline.run_keeps upkeep line).converse answers ⟨w', s'.cwd⟩ begun, fun rest waiting => kept rest waiting⟩

omit upkeep in
theorem resume_keeps (holds : I i w.backend.store) (pending : s.PendingKeeps I) (answer : Answer) :
    I i (s.resume w answer).world.backend.store ∧ (s.resume w answer).shell.PendingKeeps I := by
  rw [resume]
  split
  · exact ⟨holds, pending⟩
  · next rest waiting => exact advance_keeps (pending rest waiting answer) s holds

end Shell

/-- The shells that identities have opened on a common store, and the world that they have brought about from the
empty store: any shell starts a line without elevation, alone or up to its first prompt, or gets the next answer,
at any time. Calls on the store may fail. -/
inductive Interleaved : List Shell → World → Prop
  | start (faults : FaultSchedule) : Interleaved [] { backend := { store := .empty, faults := faults } }
  | enter {shells : List Shell} {w : World} (before : Interleaved shells w) (identity : String) :
    Interleaved (shells ++ [{ identity := identity }]) w
  | exec {front rest : List Shell} {s : Shell} {w : World} (before : Interleaved (front ++ s :: rest) w) (line : String) :
    Interleaved (front ++ (s.exec w line none).shell :: rest) (s.exec w line none).world
  | execute {front rest : List Shell} {s : Shell} {w : World} (before : Interleaved (front ++ s :: rest) w) (line : String)
    (answers : List Answer) :
    Interleaved (front ++ (s.execute w line none answers).2.1 :: rest) (s.execute w line none answers).2.2
  | resume {front rest : List Shell} {s : Shell} {w : World} (before : Interleaved (front ++ s :: rest) w) (answer : Answer) :
    Interleaved (front ++ (s.resume w answer).shell :: rest) (s.resume w answer).world

/-- The shell of an identity and the world after it has run lines to their ends, alone on an empty store. -/
def Shell.alone (identity : String) (lines : List (String × List Answer)) : Shell × World :=
  lines.foldl (fun before entered => (before.1.execute before.2 entered.1 none entered.2).2)
    ({ identity := identity }, { backend := { store := .empty } })

/-- Running alone is one way of taking turns. -/
theorem Interleaved.alone (identity : String) (lines : List (String × List Answer)) :
    Interleaved [(Shell.alone identity lines).1] (Shell.alone identity lines).2 := by
  rw [Shell.alone]
  have entered : Interleaved [{ identity := identity }] { backend := { store := .empty } } := .enter (.start .none) identity
  generalize start : (({ identity := identity }, { backend := { store := .empty } }) : Shell × World) = before
  have interleaved : Interleaved [before.1] before.2 := start ▸ entered
  clear start entered
  induction lines generalizing before with
  | nil => exact interleaved
  | cons line rest ih => exact ih _ (@Interleaved.execute [] [] _ _ interleaved line.1 line.2)

/-- What verbs keep and the empty store has holds however shells take turns, and the suspended lines will keep it. -/
theorem Interleaved.keeps {shells : List Shell} {w : World} (interleaved : Interleaved shells w)
    (upkeep : ∀ identity, Upkeep I V identity false) (start : I i .empty) :
    I i w.backend.store ∧ ∀ s ∈ shells, s.PendingKeeps I := by
  induction interleaved with
  | start => exact ⟨start, List.forall_mem_nil _⟩
  | enter before identity ih =>
    refine ⟨ih.1, fun s member => ?_⟩
    rcases List.mem_append.mp member with old | new
    · exact ih.2 s old
    · rw [List.mem_singleton.mp new]
      exact nofun
  | @exec front rest s w before line ih =>
    simp only [List.forall_mem_append, List.forall_mem_cons] at ih ⊢
    obtain ⟨holds, kept, pending, others⟩ := ih
    obtain ⟨now, later⟩ := Shell.exec_keeps (upkeep s.identity) line holds pending
    exact ⟨now, kept, later, others⟩
  | @execute front rest s w before line answers ih =>
    simp only [List.forall_mem_append, List.forall_mem_cons] at ih ⊢
    obtain ⟨holds, kept, pending, others⟩ := ih
    obtain ⟨now, later⟩ := Shell.execute_keeps (upkeep s.identity) line holds pending answers
    exact ⟨now, kept, later, others⟩
  | @resume front rest s w before answer ih =>
    simp only [List.forall_mem_append, List.forall_mem_cons] at ih ⊢
    obtain ⟨holds, kept, pending, others⟩ := ih
    obtain ⟨now, later⟩ := Shell.resume_keeps holds pending answer
    exact ⟨now, kept, later, others⟩

theorem Interleaved.orderly {shells : List Shell} {w : World} (interleaved : Interleaved shells w) :
    w.backend.store.Orderly :=
  (interleaved.keeps (i := ()) Store.orderly_upkeep Store.orderly_empty).1

end TreeShell
