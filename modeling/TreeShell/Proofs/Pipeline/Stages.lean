import TreeShell.Proofs.Pipeline.Parts

/-! # What a stage runs

A stage is looked up before it runs: its words name a command, or there is a text that says why not (`stageCommand`). The
input of the stage and the store have no part in that. A stage without a command does nothing and has that text as its
output (`runStage_of_error`). A line with a redirect is the line without it, and then a write of the reply with the elevation
of the last stage (`runParsed_redirect`).
-/

namespace TreeShell.Pipeline

/-- The elevation that a stage runs with when the given one was granted to its line. -/
def stageElevation (granted : Option Elevation) (stage : String) : Option Elevation :=
  if (Part.stage stage).asksElevation then granted else none

/-- The command that some words name, or the text that says why they run none. -/
def wordsCommand (words : List String) (elevation : Option Elevation) : Except String Command :=
  match Command.ofName? (words.headD "") words.tail with
  | none => .error ("shell: command not found: " ++ words.headD "")
  | some command =>
    if command.isModeration && elevation.isNone then
      .error (words.headD "" ++ ": permission denied (use " ++ elevationKeyword ++ ")")
    else .ok command

/-- The command that a stage runs, or the text that says why it runs none: it is empty or unknown, or it asks for an
elevation that was not granted, or needs one and does not ask for it. -/
def stageCommand (granted : Option Elevation) (stage : String) : Except String Command :=
  match Text.words stage with
  | [] => wordsCommand [] none
  | word :: rest =>
    if word = elevationKeyword then
      match granted with
      | none => .error (elevationKeyword ++ ": permission denied (elevation not granted)")
      | some elevation =>
        if rest.isEmpty then .error (elevationKeyword ++ ": missing command") else wordsCommand rest (some elevation)
    else wordsCommand (word :: rest) none

/-- What a stage does that runs a command, or whose text stands already. -/
def stageProgram (identity stdin : String) (elevation : Option Elevation) : Except String Command → Program String
  | .error text => return text
  | .ok command => command.program identity stdin elevation

variable {identity : String} {granted : Option Elevation}

theorem runWords_eq (words : List String) (stdin : String) (elevation : Option Elevation) :
    runWords identity words stdin elevation = do
      return ⟨← stageProgram identity stdin elevation (wordsCommand words elevation), elevation⟩ := by
  unfold runWords wordsCommand
  dsimp only
  cases Command.ofName? (words.headD "") words.tail with
  | none => rfl
  | some command =>
    dsimp only
    split
    · next refused =>
      obtain rfl : elevation = none := Option.isNone_iff_eq_none.mp (Bool.and_eq_true_iff.mp refused).2
      rfl
    · rfl

/-- A stage runs what it is looked up as, with its elevation. -/
theorem runStage_eq (stage stdin : String) :
    runStage identity stage stdin granted = do
      return ⟨← stageProgram identity stdin (stageElevation granted stage) (stageCommand granted stage),
        stageElevation granted stage⟩ := by
  have asked : (Part.stage stage).asksElevation = decide ((Text.words stage).head? = some elevationKeyword) := rfl
  unfold runStage stageCommand
  rw [stageElevation, asked]
  cases Text.words stage with
  | nil => exact runWords_eq [] stdin none
  | cons word rest =>
    by_cases asks : word = elevationKeyword
    · subst asks
      dsimp only
      rw [if_pos rfl, if_pos rfl, List.head?_cons, decide_eq_true rfl, if_pos rfl]
      cases granted with
      | none => rfl
      | some elevation =>
        dsimp only
        split
        · rfl
        · exact runWords_eq rest stdin (some elevation)
    · have plain : ¬ decide (some word = some elevationKeyword) = true := by simpa using asks
      dsimp only
      rw [if_neg asks, if_neg asks, List.head?_cons, if_neg plain]
      exact runWords_eq (word :: rest) stdin none

/-- A stage without a command has its text as its output, and does nothing. -/
theorem runStage_of_error {stage text : String} (refused : stageCommand granted stage = .error text) (stdin : String) :
    runStage identity stage stdin granted = pure ⟨text, stageElevation granted stage⟩ := by
  rw [runStage_eq, refused]
  rfl

/-- What a line does with the result of a stage: its later stages, and the redirect. -/
def runRest (identity : String) (granted : Option Elevation) (later : List String) (target : Option String)
    (result : StageResult) : Program String := do
  let result ← runStages identity granted later result
  match target with
  | none => return result.output
  | some target =>
    writeTarget identity target result
    return result.output

theorem runRest_append (before later : List String) (target : Option String) (result : StageResult) :
    runRest identity granted (before ++ later) target result =
      runStages identity granted before result >>= runRest identity granted later target := by
  rw [runRest, runStages_append, Program.bind_eq, Program.bind_eq, Program.bind_eq, Program.bind_assoc]
  rfl

/-! ## The redirect -/

/-- Logs that a redirect was refused, if it was. -/
def noteRefusal (identity target : String) : Verb.Result → Program Unit
  | .ok _ => return ()
  | .error refusal => Program.record (.redirectRefused identity target (refusal.message "shell"))

/-- Writes a reply to the target of a redirect, and gives it back. -/
def save (identity target : String) (elevation : Option Elevation) (reply : String) : Program String := do
  noteRefusal identity target (← (VerbCall.redirect target reply).program identity elevation)
  return reply

/-- A line with a redirect runs as it does without, and then its reply is saved with the elevation of the last stage. -/
theorem runParsed_redirect (front : List String) (last target : String) :
    runParsed identity ⟨front ++ [last], some target⟩ granted =
      runParsed identity ⟨front ++ [last], none⟩ granted >>= save identity target (stageElevation granted last) := by
  rw [runParsed, runParsed, runStages_concat]
  simp only [Program.bind_eq, Program.bind_assoc]
  refine congrArg _ (funext fun result => ?_)
  simp only [runStage_eq, Program.bind_eq, Program.bind_assoc]
  refine congrArg _ (funext fun output => ?_)
  change (Program.bind _ _).bind _ = Program.bind _ _
  rw [Program.bind_assoc]
  refine congrArg _ (funext fun outcome => ?_)
  cases outcome <;> rfl

end TreeShell.Pipeline
