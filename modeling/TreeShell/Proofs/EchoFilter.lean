import TreeShell.Proofs.CommandLine.Redirects
import TreeShell.Proofs.Pipeline.Stages
import TreeShell.Proofs.Pipeline.Turns
import TreeShell.Proofs.Program.Dialogues
import TreeShell.Proofs.Shell.Settling

/-! # `echo` is the identity filter

A stage with nothing but `echo` hands on what it gets, so at the end of a line it changes nothing (`Pipeline.run_echo`), and
before a redirect only the elevation of the write (`Pipeline.run_echo_redirect`). Two lines with the same program are the
same to whoever runs them, but for the text in the log (`CommandLine.alike_of_run_eq`). And a stage that runs no command, or
whose verb refuses, is a filter too: its text is what the next stage gets (`Pipeline.run_of_stageCommand_error`).
-/

namespace TreeShell

open CommandLine (IsPlainTarget)
open Pipeline (Part stageElevation)

/-- An event without the text of the line that it tells of. -/
def Event.withoutLine : Event → Event
  | .shellCommand identity cwd _ elevated => .shellCommand identity cwd "" elevated
  | e => e

/-- Whether two results are the same, but for the texts of lines in the logs. -/
structure ShellResult.SameButLine (r r' : ShellResult) : Prop where
  response : r'.response = r.response
  shell : r'.shell = r.shell
  backend : r'.world.backend = r.world.backend
  events : r'.world.events.map Event.withoutLine = r.world.events.map Event.withoutLine

theorem ShellResult.SameButLine.refl (r : ShellResult) : r.SameButLine r :=
  ⟨rfl, rfl, rfl, rfl⟩

namespace CommandLine

/-- Whether two lines are the same to whoever runs them: whoever does, on whatever store, and however the prompts are
answered, these are the same, and so is what comes of it. -/
def Alike (granted : Option Elevation) (line line' : String) : Prop :=
  ∀ (s : Shell) (w : World) (answers : List Answer), ∃ prompts r r',
    (s.exec w line granted).Settles answers prompts r ∧ (s.exec w line' granted).Settles answers prompts r' ∧
      r.SameButLine r'

variable {line line' : String} {granted : Option Elevation}

/-- What is logged when a line begins differs in its text only. -/
theorem map_opening (s : Shell) (line line' : String) (granted : Option Elevation) :
    (s.opening line granted).map Event.withoutLine = (s.opening line' granted).map Event.withoutLine := by
  rw [Shell.opening, Shell.opening, List.map_append, List.map_append]
  rfl

theorem alike_of_run_eq
    (same : ∀ identity, Pipeline.run identity line' granted = Pipeline.run identity line granted) :
    Alike granted line line' := by
  intro s w answers
  by_cases filled : s.identity = ""
  · have unsigned (line : String) : s.exec w line granted = ⟨.error .notSignedIn, s, w⟩ := by
      rw [Shell.exec, Shell.begin, if_pos filled]
    rw [unsigned, unsigned]
    exact ⟨[], _, _, .of_error rfl answers, .of_error rfl answers, .refl _⟩
  · cases loaded : s.ensureLoaded w with
    | mk result after =>
      obtain ⟨ready, w₁⟩ := after
      cases result with
      | error error =>
        rw [Shell.exec_of_unloaded filled loaded, Shell.exec_of_unloaded filled loaded]
        exact ⟨[], _, _, .of_error rfl answers, .of_error rfl answers, .refl _⟩
      | ok _ =>
        have begun := Shell.begin_of_loaded (Shell.loading_of loaded).same.1 filled loaded
        obtain ⟨settles, -⟩ := Shell.settles_of_begin (begun line granted) answers
        obtain ⟨settles', -⟩ := Shell.settles_of_begin (begun line' granted) answers
        obtain ⟨prompts, result, backend, cwd, logged, goes⟩ :=
          (Pipeline.run s.identity line granted).exists_converse answers w₁.backend ready.cwd
        rw [goes] at settles
        rw [same, goes] at settles'
        refine ⟨prompts, _, _, settles, settles', rfl, rfl, rfl, ?_⟩
        dsimp only [Shell.concluded]
        rw [List.map_append, List.map_append, List.map_append, List.map_append, map_opening ready line' line]

end CommandLine

/-- A command that calls a verb does nothing but that. -/
theorem Command.program_of_call? {identity stdin : String} {elevation : Option Elevation} {command : Command} {call : VerbCall}
    (called : command.call? stdin = some call) :
    command.program identity stdin elevation = call.reply identity elevation := by
  cases command with
  | verb verb =>
    cases verb with
    | cat label =>
      rw [call?] at called
      split at called
      · next empty =>
        obtain rfl := Option.some.inj called
        rw [program, if_pos empty]
      · cases called
    | _ =>
      obtain rfl := Option.some.inj called
      rfl
  | _ => cases called

namespace Pipeline

variable {identity line target : String} {granted : Option Elevation}

/-- A stage with nothing but `echo` hands on what it gets. -/
theorem runStage_echo (stdin : String) : runStage identity "echo" stdin granted = pure ⟨stdin, none⟩ := by
  have command : stageCommand granted "echo" = .ok (.echo []) := rfl
  have plain : stageElevation granted "echo" = none := rfl
  rw [runStage_eq, command, plain]
  rfl

theorem runStages_echo (stages : List String) (result : StageResult) :
    runStages identity granted (stages ++ ["echo"]) result = do
      return ⟨(← runStages identity granted stages result).output, none⟩ := by
  rw [runStages_concat]
  exact congrArg _ (funext fun last => runStage_echo last.output)

theorem runParsed_echo (stages : List String) :
    runParsed identity ⟨stages ++ ["echo"], none⟩ granted = runParsed identity ⟨stages, none⟩ granted := by
  rw [runParsed, runParsed, runStages_echo, Program.bind_eq, Program.bind_eq, Program.bind_assoc]
  rfl

/-- `echo` at the end of a line without a redirect changes nothing. -/
theorem run_echo (plain : (CommandLine.parse line).target = none) :
    run identity (line ++ " | echo") granted = run identity line granted := by
  have parsed := CommandLine.parse_append_stage plain "echo" (by decide) (by decide) (by decide)
  rw [String.append_assoc, show " | " ++ "echo" = " | echo" from rfl] at parsed
  rw [run, run, parsed, runParsed_echo]
  generalize CommandLine.parse line = parts at plain ⊢
  obtain ⟨stages, target⟩ := parts
  obtain rfl : target = none := plain
  rfl

/-- Before a redirect it takes away the elevation of the write, which a last stage without the keyword does not give. -/
theorem run_echo_redirect (plain : (CommandLine.parse line).target = none) (isTarget : IsPlainTarget target)
    (unelevated : ∀ stage ∈ (CommandLine.parse line).stages.getLast?, (Part.stage stage).asksElevation = false) :
    run identity (line ++ " | echo > " ++ target) granted = run identity (line ++ " > " ++ target) granted := by
  have piped := CommandLine.parse_append_stage plain "echo" (by decide) (by decide) (by decide)
  have redirected := CommandLine.parse_append_redirect (congrArg CommandLine.target piped) isTarget
  have whole : line ++ " | " ++ "echo" ++ " > " ++ target = line ++ " | echo > " ++ target := by
    simp only [String.append_assoc]
    rfl
  have bare : stageElevation granted "echo" = none := rfl
  rw [piped, whole] at redirected
  rw [run, run, redirected, CommandLine.parse_append_redirect plain isTarget, runParsed_redirect, runParsed_echo, bare]
  obtain ⟨front, last, parsed, -⟩ := CommandLine.exists_parse_eq plain
  rw [parsed] at unelevated ⊢
  have given : stageElevation granted (Text.trim last) = none := by
    rw [stageElevation, unelevated _ (by simp)]
    rfl
  rw [runParsed_redirect, given]

/-! ## Stages that run no command -/

variable {before later : List String} {stage : String}

/-- A line goes on behind a stage that runs no command, with the text that says why. -/
theorem run_of_stageCommand_error {text : String} (split : (CommandLine.parse line).stages = before ++ stage :: later)
    (refused : stageCommand granted stage = .error text) :
    run identity line granted = runStages identity granted before ⟨"", none⟩ >>= fun _ =>
      runRest identity granted later (CommandLine.parse line).target ⟨text, stageElevation granted stage⟩ := by
  change runRest identity granted (CommandLine.parse line).stages (CommandLine.parse line).target ⟨"", none⟩ = _
  rw [split, runRest_append]
  refine congrArg _ (funext fun earlier => ?_)
  rw [← List.singleton_append, runRest_append, runStages, runStage_of_error refused]
  rfl

/-- It goes on behind one that runs a command, with the reply of the verb or the message of its refusal. -/
theorem run_of_stageCommand_ok {command : Command} (split : (CommandLine.parse line).stages = before ++ stage :: later)
    (runs : stageCommand granted stage = .ok command) :
    let elevation := stageElevation granted stage
    let goOn := fun text => runRest identity granted later (CommandLine.parse line).target ⟨text, elevation⟩
    run identity line granted = (do
      let earlier ← runStages identity granted before ⟨"", none⟩
      match command.call? earlier.output with
      | none => goOn (← command.program identity earlier.output elevation)
      | some call =>
        match ← call.program identity elevation with
        | .ok reply => goOn reply
        | .error refusal => goOn (refusal.message call.name)) := by
  intro elevation goOn
  change runRest identity granted (CommandLine.parse line).stages (CommandLine.parse line).target ⟨"", none⟩ = _
  rw [split, runRest_append]
  refine congrArg _ (funext fun earlier => ?_)
  have one : runStages identity granted [stage] earlier = runStage identity stage earlier.output granted := Program.bind_done _
  rw [← List.singleton_append, runRest_append, one, runStage_eq, runs]
  cases called : command.call? earlier.output with
  | none =>
    rw [Program.bind_eq, Program.bind_eq, Program.bind_assoc]
    rfl
  | some call =>
    rw [stageProgram, Command.program_of_call? called, VerbCall.reply]
    simp only [Program.bind_eq, Program.bind_assoc]
    refine congrArg _ (funext fun outcome => ?_)
    cases outcome <;> rfl

end Pipeline

namespace CommandLine

/-- `echo` is the identity filter: behind a line that ends in no redirect it changes nothing, whoever runs the line, on
whatever store, and however its prompts are answered. Before a redirect it changes nothing either, unless the last stage
gives an elevation to the write. And no stage stops a line: where one runs no command, being empty or unknown or without
the elevation that it needs, the later stages get the text that says so; where its verb refuses, they get that message. -/
theorem echo_is_identity (line : String) (granted : Option Elevation) :
    ((parse line).target = none →
      Alike granted line (line ++ " | echo") ∧
        ∀ target, IsPlainTarget target →
          (∀ stage ∈ (parse line).stages.getLast?, (Part.stage stage).asksElevation = false) →
          Alike granted (line ++ " > " ++ target) (line ++ " | echo > " ++ target)) ∧
    ∀ identity before stage later, (parse line).stages = before ++ stage :: later →
      let elevation := stageElevation granted stage
      let goOn := fun text => Pipeline.runRest identity granted later (parse line).target ⟨text, elevation⟩
      (∀ text, Pipeline.stageCommand granted stage = .error text →
        Pipeline.run identity line granted =
          Pipeline.runStages identity granted before ⟨"", none⟩ >>= fun _ => goOn text) ∧
      ∀ command, Pipeline.stageCommand granted stage = .ok command →
        Pipeline.run identity line granted = (do
          let earlier ← Pipeline.runStages identity granted before ⟨"", none⟩
          match command.call? earlier.output with
          | none => goOn (← command.program identity earlier.output elevation)
          | some call =>
            match ← call.program identity elevation with
            | .ok reply => goOn reply
            | .error refusal => goOn (refusal.message call.name)) := by
  refine ⟨fun plain => ⟨?_, fun target isTarget unelevated => ?_⟩, fun identity before stage later split => ⟨?_, ?_⟩⟩
  · exact alike_of_run_eq fun _ => Pipeline.run_echo plain
  · exact alike_of_run_eq fun _ => Pipeline.run_echo_redirect plain isTarget unelevated
  · exact fun text refused => Pipeline.run_of_stageCommand_error split refused
  · exact fun command runs => Pipeline.run_of_stageCommand_ok split runs

/-- A verb may refuse in the first stage of a line, and the second one lacks the elevation that it asks for. -/
theorem echo_is_identity_behind_refusals :
    let line := "ls x | sudo ls | cat"
    Alike none line (line ++ " | echo") ∧ Alike none (line ++ " > " ++ "f") (line ++ " | echo > " ++ "f") ∧
      ∀ identity,
        (Pipeline.run identity line none = (do
          match ← (VerbCall.ls "x").program identity none with
          | .ok reply => Pipeline.runRest identity none ["sudo ls", "cat"] none ⟨reply, none⟩
          | .error refusal => Pipeline.runRest identity none ["sudo ls", "cat"] none ⟨refusal.message "ls", none⟩)) ∧
        Pipeline.run identity line none =
          Pipeline.runStages identity none ["ls x"] ⟨"", none⟩ >>= fun _ =>
            Pipeline.runRest identity none ["cat"] none ⟨"sudo: permission denied (elevation not granted)", none⟩ := by
  intro line
  have parsed : parse line = ⟨["ls x", "sudo ls", "cat"], none⟩ := by decide +kernel
  have isTarget : IsPlainTarget "f" := ⟨by decide, List.forall_mem_singleton.mpr rfl, by decide, by decide⟩
  obtain ⟨echoes, passes⟩ := echo_is_identity line none
  rw [parsed] at echoes passes
  obtain ⟨alike, redirected⟩ := echoes rfl
  refine ⟨alike, redirected "f" isTarget (by decide), fun identity => ⟨?_, ?_⟩⟩
  · exact (passes identity [] "ls x" ["sudo ls", "cat"] rfl).2 (.verb (.ls "x")) rfl
  · exact (passes identity ["ls x"] "sudo ls" ["cat"] rfl).1 _ rfl

end CommandLine

end TreeShell
