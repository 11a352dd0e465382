import TreeShell.Proofs.Program.Keeps
import TreeShell.Pipeline

/-! # The parts of a line

A line runs part by part, its stages first and then its redirect, each on the result of the one before. However far
a run comes, it works some parts off in their order, and if it waits, it waits in the last of them: `carry` says how
far a run of parts comes, and `Suspended.carry` how far it comes after an answer. Both say what the line itself does
(`run_runParts`, `run_remainder`).

The elevation that was granted to a line counts in the stages that begin with the elevation keyword only. All other
stages are the same programs as without it (`runStage_congr`), and so are redirects behind them (`runParsed_congr`).
-/

namespace TreeShell

/-- A run of one program and then another stops where the first one does, or where the other does after it. -/
theorem Program.run_bind {α β : Type} (p : Program α) (f : α → Program β) (m : Machine) :
    (p >>= f).run m =
      match p.run m with
      | (.finished a, m) => (f a).run m
      | (.waiting prompt resume, m) => (.waiting prompt fun answer => resume answer >>= f, m)
      | (.failed error, m) => (.failed error, m) := by
  induction p generalizing m with
  | done a => rfl
  | call request next ih =>
    rw [bind_eq, bind, run, run]
    split
    · exact ih _ _
    · rfl
  | ask prompt next ih => rfl
  | log event next ih => exact ih _
  | cwd next ih => exact ih _ _
  | enter path next ih => exact ih _

namespace Pipeline

/-- A part of a line. -/
inductive Part where
  | stage (text : String)
  | redirect (target : String)
deriving DecidableEq, Repr

/-- Whether a part is a stage that begins with the elevation keyword. -/
def Part.asksElevation : Part → Bool
  | .stage text => (Text.words text).head? = some elevationKeyword
  | .redirect _ => false

end Pipeline

/-- The parts of a line in the order in which they run. -/
def CommandLine.parts (line : CommandLine) : List Pipeline.Part :=
  line.stages.map .stage ++ line.target.toList.map .redirect

namespace Pipeline

/-- Runs a part of a line on the result of the part before. -/
def runPart (identity : String) (granted : Option Elevation) (result : StageResult) : Part → Program StageResult
  | .stage text => runStage identity text result.output granted
  | .redirect target => do
    writeTarget identity target result
    return result

/-- Runs parts of a line in turn; the reply is the output that they come to. -/
def runParts (identity : String) (granted : Option Elevation) : List Part → StageResult → Program String
  | [], result => return result.output
  | part :: later, result => do runParts identity granted later (← runPart identity granted result part)

/-- A part of a line that waits for an answer, and the parts after it. -/
structure Suspended where
  part : Part
  rest : Answer → Program StageResult
  later : List Part

/-- The rest of a line that waits. -/
def Suspended.remainder (s : Suspended) (identity : String) (granted : Option Elevation) (answer : Answer) :
    Program String := do
  runParts identity granted s.later (← s.rest answer)

/-- Where a line stops. -/
inductive Stop where
  | ended (text : String)
  | waits (prompt : Prompt) (suspended : Suspended)
  | failed (error : StoreError)

/-- How far the program of a line came that stops so. -/
def Stop.outcome (identity : String) (granted : Option Elevation) : Stop → Outcome String
  | .ended text => .finished text
  | .waits prompt suspended => .waiting prompt (suspended.remainder identity granted)
  | .failed error => .failed error

/-- What is left of a line that stops so. -/
def Stop.suspended? : Stop → Option Suspended
  | .waits _ suspended => some suspended
  | _ => none

/-- How far a line comes: the parts that it works on in their order, where it stops, and the machine then. -/
structure Progress where
  ran : List Part
  stop : Stop
  machine : Machine

/-- How far a line comes that has come so far in one part and goes on with the next. -/
def through (part : Part) (later : List Part) (next : StageResult → Machine → Progress) :
    Outcome StageResult × Machine → Progress
  | (.finished result, m) => { next result m with ran := part :: (next result m).ran }
  | (.waiting prompt rest, m) => ⟨[part], .waits prompt ⟨part, rest, later⟩, m⟩
  | (.failed error, m) => ⟨[part], .failed error, m⟩

/-- How far a run of parts comes. -/
def carry (identity : String) (granted : Option Elevation) : List Part → StageResult → Machine → Progress
  | [], result, m => ⟨[], .ended result.output, m⟩
  | part :: later, result, m =>
    through part later (carry identity granted later) ((runPart identity granted result part).run m)

/-- How far a line that waits comes after an answer. -/
def Suspended.carry (s : Suspended) (identity : String) (granted : Option Elevation) (answer : Answer) (m : Machine) :
    Progress :=
  through s.part s.later (Pipeline.carry identity granted s.later) ((s.rest answer).run m)

variable {identity : String} {granted : Option Elevation}

/-! ## A line is the run of its parts -/

/-- Running the stages one after the other, with a redirect at the end, is running the parts. -/
theorem run_eq_runParts (identity line : String) (granted : Option Elevation) :
    run identity line granted = runParts identity granted (CommandLine.parse line).parts ⟨"", none⟩ := by
  rw [run, runParsed, CommandLine.parts]
  generalize (⟨"", none⟩ : StageResult) = result
  induction (CommandLine.parse line).stages generalizing result with
  | nil =>
    cases (CommandLine.parse line).target with
    | none => rfl
    | some target =>
      change (writeTarget identity target result).bind (fun _ => .done result.output) =
        ((writeTarget identity target result).bind fun _ => .done result).bind fun r => .done r.output
      rw [Program.bind_assoc]
      rfl
  | cons stage rest ih =>
    rw [runStages, List.map_cons, List.cons_append, runParts, Program.bind_eq, Program.bind_eq, Program.bind_assoc]
    exact congrArg _ (funext ih)

/-- A run of a program in a line, and of the parts after it, comes as far as is said of its own run. -/
theorem run_through (part : Part) (later : List Part)
    (next : ∀ result m, (runParts identity granted later result).run m =
      ((carry identity granted later result m).stop.outcome identity granted, (carry identity granted later result m).machine))
    (p : Program StageResult) (m : Machine) :
    (p >>= runParts identity granted later).run m =
      ((through part later (carry identity granted later) (p.run m)).stop.outcome identity granted,
        (through part later (carry identity granted later) (p.run m)).machine) := by
  rw [Program.run_bind]
  generalize p.run m = ran
  obtain ⟨outcome, m⟩ := ran
  cases outcome with
  | finished result => exact next result m
  | waiting prompt rest => rfl
  | failed error => rfl

/-- Parts come as far as `carry` says. -/
theorem run_runParts (parts : List Part) (result : StageResult) (m : Machine) :
    (runParts identity granted parts result).run m =
      ((carry identity granted parts result m).stop.outcome identity granted,
        (carry identity granted parts result m).machine) := by
  induction parts generalizing result m with
  | nil => rfl
  | cons part later ih => exact run_through part later ih (runPart identity granted result part) m

/-- A line that waits comes as far as its `carry` says. -/
theorem run_remainder (s : Suspended) (answer : Answer) (m : Machine) :
    (s.remainder identity granted answer).run m =
      ((s.carry identity granted answer m).stop.outcome identity granted, (s.carry identity granted answer m).machine) :=
  run_through s.part s.later (run_runParts s.later) (s.rest answer) m

/-! ## Parts without the elevation of their line -/

/-- A stage that does not begin with the elevation keyword is the same whatever was granted to its line. -/
theorem runStage_congr {stage : String} (plain : (Part.stage stage).asksElevation = false) (stdin : String) :
    runStage identity stage stdin granted = runStage identity stage stdin none := by
  rw [Part.asksElevation, decide_eq_false_iff_not] at plain
  unfold runStage
  split
  · rfl
  · next word rest same =>
    have differs : word ≠ elevationKeyword := fun asks => plain (by rw [same, asks]; rfl)
    rw [if_neg differs, if_neg differs]

theorem runStages_append (before later : List String) (result : StageResult) :
    runStages identity granted (before ++ later) result =
      runStages identity granted before result >>= runStages identity granted later := by
  induction before generalizing result with
  | nil => rfl
  | cons first rest ih =>
    rw [List.cons_append, runStages, runStages, Program.bind_eq, Program.bind_eq, Program.bind_eq, Program.bind_assoc]
    exact congrArg _ (funext fun next => ih next)

theorem runStages_concat (front : List String) (stage : String) (result : StageResult) :
    runStages identity granted (front ++ [stage]) result =
      runStages identity granted front result >>= fun r => runStage identity stage r.output granted := by
  rw [runStages_append]
  exact congrArg _ (funext fun _ => Program.bind_done _)

/-- Neither is a redirect behind such a stage. -/
theorem runParsed_congr (front : List String) {stage : String} (plain : (Part.stage stage).asksElevation = false)
    (target : String) :
    runParsed identity ⟨front ++ [stage], some target⟩ granted = do
      let result ← runStages identity granted front ⟨"", none⟩
      let result ← runStage identity stage result.output none
      writeTarget identity target result
      return result.output := by
  rw [runParsed, runStages_concat, Program.bind_eq, Program.bind_eq, Program.bind_assoc]
  refine congrArg _ (funext fun result => ?_)
  rw [runStage_congr plain]
  rfl

end Pipeline

end TreeShell
