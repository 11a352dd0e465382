import TreeShell.Proofs.Chat.Requests

/-! # Checks of the elevation password

Every check of an elevation password is logged, unless the digest cannot be compared, and that is an error of its own. No
line logs a check, and no shell comes to that error. So whether a chat has checked a password for a message can be told by
what it logs and answers, and it has exactly if the message gets past the ban list with a command that asks for elevation
(`Chat.checks_iff`).
-/

namespace TreeShell

/-- Whether an event is a check of an elevation password. -/
def Event.isAttempt : Event → Bool
  | .elevationAttempt .. => true
  | _ => false

/-- The checks that were logged. -/
def World.attempts (w : World) : List Event :=
  w.events.filter Event.isAttempt

theorem Event.OfLine.not_isAttempt {identity : String} {e : Event} (line : e.OfLine identity) : e.isAttempt = false := by
  cases line <;> rfl

theorem World.attempts_of_events {w w' : World} {logged : List Event} (events : w'.events = w.events ++ logged)
    (others : ∀ e ∈ logged, e.isAttempt = false) : w'.attempts = w.attempts := by
  have none : logged.filter Event.isAttempt = [] := List.filter_eq_nil_iff.mpr fun e member => by simp [others e member]
  rw [attempts, attempts, events, List.filter_append, none, List.append_nil]

/-- Whether no password was checked on the way from a world to another: no check is logged, and the response is not that the
digest cannot be compared. -/
structure Unchecked (w : World) (response : Except ShellError Response) (w' : World) : Prop where
  response : ∀ error, response ≠ .error (.gate error)
  attempts : w'.attempts = w.attempts

/-- The look at the ban list checks no password. -/
theorem BanList.attempts_runOn_isBanned (identity : String) (w : World) :
    ((isBanned identity).runOn w).2.attempts = w.attempts := by
  rw [isBanned_eq, Program.runOn, Program.converse]
  rcases w.backend.call (.get (Key.ban identity)) with ⟨error | v, backend⟩ <;> rfl

namespace Shell

variable {s : Shell} {w : World} {identity line : String} {granted : Option Elevation} {r : ShellResult}
  {left : Program String}

/-- A line checks no password. -/
theorem Advanced.unchecked (advanced : s.Advanced w (Pipeline.run identity line granted) r left) :
    Unchecked w r.response r.world := by
  refine ⟨fun error failed => ?_, World.attempts_of_events advanced.did.events fun e member => ?_⟩
  · cases advanced.leaves with
    | ended response => cases response.symm.trans failed
    | waits response => cases response.symm.trans failed
    | failed response => cases response.symm.trans failed
  · exact (Pipeline.run_logs identity line granted _ _ _ advanced.leads e member).not_isAttempt

theorem not_isAttempt_opening (s : Shell) (line : String) (granted : Option Elevation) :
    ∀ e ∈ s.opening line granted, e.isAttempt = false := by
  unfold opening
  split <;> simp [Event.isAttempt]

/-- So a shell checks none. -/
theorem exec_unchecked (s : Shell) (w : World) (line : String) (granted : Option Elevation) :
    Unchecked w (s.exec w line granted).response (s.exec w line granted).world := by
  by_cases filled : s.identity = ""
  · rw [exec, begin, if_pos filled]
    exact ⟨by rintro _ ⟨⟩, rfl⟩
  · cases loaded : s.ensureLoaded w with
    | mk result ready =>
      obtain ⟨ready, w'⟩ := ready
      obtain ⟨-, -, events⟩ := (loading_of loaded).same
      cases result with
      | error error =>
        rw [exec_of_unloaded filled loaded]
        exact ⟨by rintro _ ⟨⟩, congrArg (List.filter Event.isAttempt) events⟩
      | ok _ =>
        rw [exec_of_loaded filled loaded]
        obtain ⟨left, advanced⟩ := ({ ready with pending := none } : Shell).advanced
          { w' with events := w'.events ++ ready.opening line granted } (Pipeline.run s.identity line granted)
        obtain ⟨response, attempts⟩ := advanced.unchecked
        refine ⟨response, attempts.trans ?_⟩
        exact World.attempts_of_events (congrArg (· ++ _) events) (ready.not_isAttempt_opening line granted)

end Shell

namespace Chat

variable {c : Chat} {identity command message : String} {password : Answer}

/-- What the audit database logs is no check. -/
theorem attempts_audit (c : Chat) (statement : String) (apply : AuditTables → Except AuditError AuditTables) :
    (c.audit fun db => db.change statement apply).world.attempts = c.world.attempts := by
  have refused (db : AuditDatabase) : ∀ e ∈ (db.change statement apply).2, e.isAttempt = false := by
    cases db with
    | disabled => exact List.forall_mem_nil _
    | enabled tables =>
      rw [AuditDatabase.change]
      dsimp only
      split
      · exact List.forall_mem_singleton.mpr rfl
      · split
        · exact List.forall_mem_nil _
        · exact List.forall_mem_singleton.mpr rfl
  rw [audit]
  cases c.database with
  | none => rfl
  | some db =>
    dsimp only
    rw [World.foldl_record]
    exact World.attempts_of_events rfl (refused db)

theorem attempts_insertCommand (c : Chat) (identity command : String) (elevated : Bool) :
    (c.audit fun db => db.insertCommand (some identity) (some command) elevated).world.attempts = c.world.attempts :=
  c.attempts_audit _ _

theorem attempts_insertElevation (c : Chat) (identity : String) (success : Bool) :
    (c.audit fun db => db.insertElevation (some identity) success).world.attempts = c.world.attempts :=
  c.attempts_audit _ _

/-- A launch checks no password any more. -/
theorem launch_unchecked (c : Chat) (identity command : String) (granted : Option Elevation) :
    Unchecked c.world (c.launch identity command granted).1 (c.launch identity command granted).2.world := by
  rw [launch, delegate]
  generalize recorded : (c.audit fun db => db.insertCommand (some identity) (some command) granted.isSome) = d
  have before : d.world.attempts = c.world.attempts := recorded ▸ c.attempts_insertCommand identity command granted.isSome
  obtain ⟨response, attempts⟩ := (d.shellOf identity).exec_unchecked d.world command granted
  refine ⟨fun error failed => ?_, attempts.trans before⟩
  dsimp only at failed
  cases given : ((d.shellOf identity).exec d.world command granted).response with
  | ok reply =>
    rw [given] at failed
    cases failed
  | error other =>
    rw [given] at failed
    exact response error (given.trans (congrArg Except.error (Except.error.inj failed)))

/-- Whether a password was checked on the way from a world to another: the check is logged, or the response is that the
digest cannot be compared. -/
def CheckedOf (identity : String) (w : World) (response : Except ShellError Response) (w' : World) : Prop :=
  (∃ error, response = .error (.gate error)) ∨
    ∃ granted, w'.attempts = w.attempts ++ [.elevationAttempt identity granted]

/-- Whether a chat checks an elevation password for a message. -/
def Checks (c : Chat) (identity message : String) (password : Answer) : Prop :=
  CheckedOf identity c.world (c.handle identity message password).1 (c.handle identity message password).2.world

theorem not_checkedOf_of_unchecked {w w' : World} {response : Except ShellError Response}
    (unchecked : Unchecked w response w') : ¬ CheckedOf identity w response w' := by
  rintro (⟨error, failed⟩ | ⟨granted, logged⟩)
  · exact unchecked.response error failed
  · rw [unchecked.attempts] at logged
    simp at logged

/-- A command is checked exactly if it asks for elevation. -/
theorem checkedOf_challenge_iff {identity : String} (c : Chat) (command : String) (password : Answer) :
    CheckedOf identity c.world (c.challenge identity command password).1 (c.challenge identity command password).2.world ↔
      wantsElevation command = true := by
  rw [challenge]
  split
  · next wants =>
    refine iff_of_true ?_ wants
    rw [Gate.verify]
    have logged (granted success : Bool) :
        ((c.record (.elevationAttempt identity granted)).audit fun db => db.insertElevation (some identity) success).world.attempts =
          c.world.attempts ++ [.elevationAttempt identity granted] := by
      rw [attempts_insertElevation, record, World.record, World.attempts, List.filter_append]
      rfl
    cases c.gate.accepts password with
    | error error => exact .inl ⟨error, rfl⟩
    | ok granted =>
      cases granted with
      | false => exact .inr ⟨false, logged false false⟩
      | true => exact .inr ⟨true, (launch_unchecked ..).attempts.trans (logged true true)⟩
  · next plain => exact iff_of_false (not_checkedOf_of_unchecked (c.launch_unchecked identity command none)) plain

theorem wantsElevation_empty : wantsElevation "" = false := by
  decide

/-- A chat checks a password for a message exactly if it gets past the ban list with a command that asks for elevation. -/
theorem checks_iff : c.Checks identity message password ↔
    c.PassesBans identity ∧ wantsElevation (commandOf message) = true := by
  have looked := BanList.runOn_isBanned_eq_false_iff identity c.world
  have quiet := BanList.attempts_runOn_isBanned identity c.world
  rw [Checks, handle]
  split
  · next unnamed => exact iff_of_false (not_checkedOf_of_unchecked ⟨by rintro _ ⟨⟩, rfl⟩) fun both => both.1.1 unnamed
  · next named =>
    generalize (BanList.isBanned identity).runOn c.world = ran at looked quiet
    obtain ⟨error | banned, world⟩ := ran
    · refine iff_of_false (not_checkedOf_of_unchecked ⟨by rintro _ ⟨⟩, quiet⟩) fun both => ?_
      cases looked.mpr both.1.2
    · dsimp only at quiet ⊢
      split
      · next isBanned =>
        refine iff_of_false (not_checkedOf_of_unchecked ⟨by rintro _ ⟨⟩, quiet⟩) fun both => ?_
        rw [isBanned] at looked
        cases looked.mpr both.1.2
      · next notBanned =>
        have passes : c.PassesBans identity := ⟨named, looked.mp (congrArg Except.ok (Bool.eq_false_iff.mpr notBanned))⟩
        rw [and_iff_right passes]
        split
        · next nothing =>
          rw [nothing, wantsElevation_empty]
          exact iff_of_false (not_checkedOf_of_unchecked ⟨by rintro _ ⟨⟩, quiet⟩) Bool.false_ne_true
        · have challenged := @checkedOf_challenge_iff identity { c with world := world } (commandOf message) password
          rwa [CheckedOf, quiet] at challenged

end Chat

end TreeShell
