import TreeShell.Command
import TreeShell.CommandLine

/-! # Running a command line

The stages of a line run in turn, each with the output of the one before it; an unknown or refused stage
gives a text like any other, so the line goes on. A stage that begins with the elevation keyword runs
with the elevation granted to the line, all others without. At the end the output goes to the target of
the redirect with the elevation of the last stage, and a refused redirect is logged.
-/

namespace TreeShell

/-- The output of a stage, and the elevation it ran with. -/
structure StageResult where
  output : String
  elevation : Option Elevation
deriving DecidableEq, Repr

namespace Pipeline

/-- Runs a command that is given by its words. -/
def runWords (identity : String) (words : List String) (stdin : String) (elevation : Option Elevation) :
    Program StageResult := do
  let name := words.headD ""
  match Command.ofName? name words.tail with
  | none => return ⟨"shell: command not found: " ++ name, elevation⟩
  | some command =>
    if command.isModeration && elevation.isNone then
      return ⟨name ++ ": permission denied (use " ++ elevationKeyword ++ ")", none⟩
    else return ⟨← command.program identity stdin elevation, elevation⟩

/-- Runs a stage of a line to which the given elevation was granted. -/
def runStage (identity stage stdin : String) (granted : Option Elevation) : Program StageResult :=
  match Text.words stage with
  | [] => runWords identity [] stdin none
  | word :: rest =>
    if word = elevationKeyword then
      match granted with
      | none => return ⟨elevationKeyword ++ ": permission denied (elevation not granted)", none⟩
      | some elevation =>
        if rest.isEmpty then return ⟨elevationKeyword ++ ": missing command", some elevation⟩
        else runWords identity rest stdin (some elevation)
    else runWords identity (word :: rest) stdin none

/-- Runs the stages in turn, from the result of an earlier stage. -/
def runStages (identity : String) (granted : Option Elevation) :
    List String → StageResult → Program StageResult
  | [], result => return result
  | stage :: rest, result => do
    runStages identity granted rest (← runStage identity stage result.output granted)

/-- Writes the output of a line to the target of its redirect. -/
def writeTarget (identity target : String) (result : StageResult) : Program Unit := do
  let call := VerbCall.redirect target result.output
  match ← call.program identity result.elevation with
  | .ok _ => return ()
  | .error refusal => Program.record (.redirectRefused identity target (refusal.message call.name))

/-- Runs the parts of a line; its reply is the output of the last stage. -/
def runParsed (identity : String) (line : CommandLine) (granted : Option Elevation) : Program String := do
  let result ← runStages identity granted line.stages ⟨"", none⟩
  match line.target with
  | none => return result.output
  | some target =>
    writeTarget identity target result
    return result.output

/-- Runs a line. -/
def run (identity line : String) (granted : Option Elevation) : Program String :=
  runParsed identity (CommandLine.parse line) granted

end Pipeline

end TreeShell
