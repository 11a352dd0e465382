import TreeShell.Proofs.Verb.Strands
import TreeShell.Shell

/-! # The turns of a line

A line without elevation is a row of calls of verbs: a stage makes one or none, and a redirect makes the last.
Between them nothing happens to the store, but that a shell remembers its working directory. So whatever
lines do to the empty store is done by turns, each of which begins with the store that the ones before have
left (`Reachable.history`).
-/

namespace TreeShell

open Verb

/-- The call that a command makes of a verb, if it makes one; `cat` gives back an input that it gets. -/
def Command.call? (stdin : String) : Command → Option VerbCall
  | .verb (.cat label) => if stdin = "" then some (.cat label) else none
  | .verb call => some call
  | _ => none

namespace Pipeline

/-- The call that a stage without elevation makes of a verb, if it makes one. -/
def stageCall? (stage stdin : String) : Option VerbCall :=
  match Text.words stage with
  | [] => none
  | word :: rest => if word = elevationKeyword then none else (Command.ofName? word rest).bind (Command.call? stdin)

/-- The turns that stages take, from the result of an earlier stage. -/
def stageTurns (identity : String) : List String → StageResult → Solo → List Turn
  | [], _, _ => []
  | stage :: rest, result, u =>
    let next := (runStage identity stage result.output none).play u
    ((stageCall? stage result.output).toList.map fun call => ⟨identity, u, call⟩) ++
      stageTurns identity rest next.1 next.2

/-- The turns that a line takes without elevation. -/
def turns (identity line : String) (u : Solo) : List Turn :=
  let parts := CommandLine.parse line
  let last := (runStages identity none parts.stages ⟨"", none⟩).play u
  stageTurns identity parts.stages ⟨"", none⟩ u ++
    parts.target.toList.map fun target => ⟨identity, last.2, .redirect target last.1.output⟩

end Pipeline

/-- The turns that a shell takes to run a line to its end. -/
def Shell.turns (s : Shell) (w : World) (line : String) (answers : List Answer) : List Turn :=
  match s.begin w line none with
  | (.error _, _, _) => []
  | (.ok (), s, w) => Pipeline.turns s.identity line ((⟨w, s.cwd⟩ : Machine).solo answers)

/-- The stores that lines lead to from the empty one, whoever runs them and however prompts are answered, as
long as no call on the store fails and nobody has elevation, with the turns that were taken. -/
inductive Reachable : List Turn → Store → Prop
  | start : Reachable [] .empty
  | line {made : List Turn} {w : World} (before : Reachable made w.backend.store)
    (noFaults : w.backend.faults = FaultSchedule.none) (shell : Shell) (line : String) (answers : List Answer) :
    Reachable (made ++ shell.turns w line answers) (shell.execute w line none answers).2.2.backend.store

/-- The turns that an identity has taken, and the store that they have led to from the empty one, when it comes
back with a new shell for each of some lines. -/
def Shell.visits (identity : String) (lines : List (String × List Answer)) : List Turn × Store :=
  lines.foldl (fun before entered =>
    let shell : Shell := { identity := identity }
    let w : World := { backend := { store := before.2 } }
    (before.1 ++ shell.turns w entered.1 entered.2, (shell.execute w entered.1 none entered.2).2.2.backend.store))
    ([], .empty)

/-- Such visits are one way in which lines lead to a store. -/
theorem Reachable.visits (identity : String) (lines : List (String × List Answer)) :
    Reachable (Shell.visits identity lines).1 (Shell.visits identity lines).2 := by
  rw [Shell.visits]
  generalize start : (([], .empty) : List Turn × Store) = before
  have reachable : Reachable before.1 before.2 := start ▸ .start
  clear start
  induction lines generalizing before with
  | nil => exact reachable
  | cons entered rest ih =>
    exact ih _ (.line (w := { backend := { store := before.2 } }) reachable rfl { identity := identity } entered.1 entered.2)

/-- A session after the call that is made, if there is one. -/
def Solo.take (u : Solo) (identity : String) : Option VerbCall → Solo
  | none => u
  | some call => ((call.program identity none).play u).2

/-- The store that a call leaves behind. -/
def Turn.after (t : Turn) : Store :=
  t.outcome.2.store

/-- Turns that begin each with the store that the ones before have left, but for working directories. -/
inductive History : List Turn → Store → Prop
  | start : History [] .empty
  | turn {made : List Turn} {t : Turn} (before : History made t.before.store) : History (made ++ [t]) t.after
  | remember {made : List Turn} {s : Store} (before : History made s) (identity cwd : String) :
    History made (s.set (Key.cwd identity) (.text cwd))

namespace Command

variable {u : Solo} {stdin : String}

/-- A command does to a session what its call does. -/
theorem play_program (identity : String) {command : Command} (free : command.isModeration = false) :
    ((command.program identity stdin none).play u).2 = u.take identity (command.call? stdin) := by
  have replies (call : VerbCall) : ((call.reply identity none).play u).2 = ((call.program identity none).play u).2 := by
    rw [VerbCall.reply, Program.play_bind]
    rfl
  cases command with
  | verb call =>
    cases call with
    | cat label =>
      rw [program, call?]
      split
      · exact replies (.cat label)
      · rfl
    | _ => exact replies _
  | echo args | help | pwd => rfl
  | _ => exact absurd free nofun

end Command

namespace Pipeline

variable {u : Solo} {made : List Turn}

theorem play_runWords (identity name : String) (args : List String) (stdin : String) (u : Solo) :
    ((runWords identity (name :: args) stdin none).play u).2 =
        u.take identity ((Command.ofName? name args).bind (Command.call? stdin)) ∧
      ((runWords identity (name :: args) stdin none).play u).1.elevation = none := by
  unfold runWords
  dsimp only [List.headD_cons, List.tail_cons]
  cases Command.ofName? name args with
  | none => exact ⟨rfl, rfl⟩
  | some command =>
    dsimp only
    split
    · next refused =>
      refine ⟨?_, rfl⟩
      cases command with
      | ban target | unban target | listBanned => rfl
      | _ => exact absurd refused nofun
    · next allowed =>
      have free : command.isModeration = false := by simpa using allowed
      rw [Program.play_bind]
      exact ⟨Command.play_program identity free, rfl⟩

/-- A stage does to a session what its call does. -/
theorem play_runStage (identity stage stdin : String) (u : Solo) :
    ((runStage identity stage stdin none).play u).2 = u.take identity (stageCall? stage stdin) ∧
      ((runStage identity stage stdin none).play u).1.elevation = none := by
  unfold runStage stageCall?
  cases Text.words stage with
  | nil => exact ⟨rfl, rfl⟩
  | cons word rest =>
    dsimp only
    split
    · exact ⟨rfl, rfl⟩
    · exact play_runWords identity word rest stdin u

theorem history_runStages (identity : String) (stages : List String) {result : StageResult} (unelevated : result.elevation = none)
    (history : History made u.store) :
    History (made ++ stageTurns identity stages result u) ((runStages identity none stages result).play u).2.store ∧
      ((runStages identity none stages result).play u).1.elevation = none := by
  induction stages generalizing made result u with
  | nil =>
    rw [stageTurns, List.append_nil]
    exact ⟨history, unelevated⟩
  | cons stage rest ih =>
    obtain ⟨led, still⟩ := play_runStage identity stage result.output u
    rw [runStages, Program.play_bind, stageTurns, ← List.append_assoc]
    refine ih still ?_
    rw [led]
    cases stageCall? stage result.output with
    | none =>
      rw [Option.toList_none, List.map_nil, List.append_nil]
      exact history
    | some call => exact history.turn (t := ⟨identity, u, call⟩)

theorem store_writeTarget (identity target : String) {result : StageResult} (unelevated : result.elevation = none) (u : Solo) :
    ((writeTarget identity target result).play u).2.store =
      (⟨identity, u, .redirect target result.output⟩ : Turn).after := by
  unfold writeTarget
  rw [unelevated, Program.play_bind, Turn.after, Turn.outcome]
  generalize ((VerbCall.redirect target result.output).program identity none).play u = r
  obtain ⟨refusal | reply, v⟩ := r <;> rfl

theorem history_run (identity line : String) (history : History made u.store) :
    History (made ++ turns identity line u) ((run identity line none).play u).2.store := by
  have start : (⟨"", none⟩ : StageResult).elevation = none := rfl
  obtain ⟨staged, unelevated⟩ := history_runStages identity (CommandLine.parse line).stages start history
  unfold run runParsed turns
  dsimp only
  rw [Program.play_bind]
  generalize (runStages identity none (CommandLine.parse line).stages ⟨"", none⟩).play u = last at staged unelevated ⊢
  obtain ⟨result, v⟩ := last
  cases (CommandLine.parse line).target with
  | none =>
    dsimp only
    rw [Option.toList_none, List.map_nil, List.append_nil]
    exact staged
  | some target =>
    dsimp only
    rw [Program.play_bind, Program.play_pure, store_writeTarget identity target unelevated, Option.toList_some,
      List.map_singleton, ← List.append_assoc]
    exact staged.turn

end Pipeline

namespace Shell

variable {made : List Turn} {w : World}

theorem history_load (s : Shell) (noFaults : w.backend.faults = FaultSchedule.none)
    (history : History made w.backend.store) : History made (s.load w).2.2.backend.store := by
  obtain ⟨-, store, -⟩ := (Context.load s.identity).converse_eq_play [] (m := ⟨w, s.cwd⟩) noFaults
  have written : History made (w.backend.store.set (Key.cwd s.identity) (.text "/")) := history.remember s.identity "/"
  rw [load]
  dsimp only
  rw [store, Context.load, Program.play_bind, Program.play_fetch]
  dsimp only
  split
  · split
    · exact history
    · exact written
  · exact written

/-- Getting ready for a line remembers the working directory at most. -/
theorem history_begin (s : Shell) (line : String) (noFaults : w.backend.faults = FaultSchedule.none)
    (history : History made w.backend.store) :
    History made (s.begin w line none).2.2.backend.store ∧
      (s.begin w line none).2.2.backend.faults = FaultSchedule.none := by
  have loaded : History made (s.ensureLoaded w).2.2.backend.store ∧
      (s.ensureLoaded w).2.2.backend.faults = FaultSchedule.none := by
    rw [ensureLoaded]
    split
    · exact ⟨history, noFaults⟩
    · exact ⟨s.history_load noFaults history, (Program.faults_converse ..).trans noFaults⟩
  unfold begin
  split
  · exact ⟨history, noFaults⟩
  · generalize s.ensureLoaded w = ready at loaded
    obtain ⟨result, s', w'⟩ := ready
    cases result with
    | error e => exact loaded
    | ok _ =>
      dsimp only [abandon]
      split <;> exact loaded

theorem history_execute (s : Shell) (line : String) (answers : List Answer)
    (noFaults : w.backend.faults = FaultSchedule.none) (history : History made w.backend.store) :
    History (made ++ s.turns w line answers) (s.execute w line none answers).2.2.backend.store := by
  obtain ⟨begun, still⟩ := s.history_begin line noFaults history
  rw [turns, execute]
  generalize s.begin w line none = ready at begun still
  obtain ⟨result, s', w'⟩ := ready
  cases result with
  | error e =>
    dsimp only
    rw [List.append_nil]
    exact begun
  | ok _ =>
    obtain ⟨-, store, -⟩ := (Pipeline.run s'.identity line none).converse_eq_play answers (m := ⟨w', s'.cwd⟩) still
    dsimp only
    rw [store]
    exact Pipeline.history_run s'.identity line begun

end Shell

/-- Lines take turns. -/
theorem Reachable.history {made : List Turn} {s : Store} (reachable : Reachable made s) : History made s := by
  induction reachable with
  | start => exact .start
  | line before noFaults shell line answers ih => exact shell.history_execute line answers noFaults ih

/-- Every turn begins with the store that the ones before it have left. -/
theorem History.before {earlier later : List Turn} {t : Turn} {s : Store} (history : History (earlier ++ t :: later) s) :
    History earlier t.before.store := by
  generalize whole : earlier ++ t :: later = made at history
  induction history generalizing later with
  | start => simp at whole
  | @turn made last before ih =>
    rcases List.eq_nil_or_concat later with rfl | ⟨front, final, rfl⟩
    · obtain ⟨rfl, same⟩ := List.append_inj' whole rfl
      obtain rfl := List.singleton_inj.mp same
      exact before
    · rw [List.concat_eq_append, ← List.cons_append, ← List.append_assoc] at whole
      exact ih (List.append_inj' whole rfl).1
  | remember before identity cwd ih => exact ih whole

/-- Every store with a history is sound. -/
theorem History.sound {made : List Turn} {s : Store} (history : History made s) : s.Sound := by
  induction history with
  | start => exact Store.sound_empty
  | @turn made t before ih => exact t.call.sound t.identity ih
  | remember before identity cwd ih => exact ih.set_cwd identity cwd

end TreeShell
