import TreeShell.Proofs.Chat.Lines
import TreeShell.Proofs.Shell.Loading

/-! # The audit trail

What the audit database holds is settled by the requests. A message adds a row to the commands if it gets past the ban
list with a command and, where it asks for elevation, with the right password, and a row to the elevations if it gets
past the ban list with a command that asks for elevation. Nothing else adds a row, and no line runs that has none
(`Chat.audit_trail_exact`).
-/

namespace TreeShell

namespace Gate

/-- Whether the digest of a gate is ASCII. -/
def IsAscii (g : Gate) : Prop :=
  ∀ c ∈ g.digest.toList, c.toNat < 0x80

instance (g : Gate) : Decidable g.IsAscii :=
  List.decidableBAll (fun c : Char => c.toNat < 0x80) g.digest.toList

/-- Whether a gate issues an elevation to an identity for a password. -/
def issues (g : Gate) (identity : String) (password : Answer) : Bool :=
  match g.verify identity password with
  | .ok (granted, _) => granted.isSome
  | .error _ => false

/-- An ASCII digest can be compared with every password. -/
theorem IsAscii.exists_accepts {g : Gate} (ascii : g.IsAscii) (password : Answer) :
    ∃ granted, g.accepts password = .ok granted := by
  have lower (c : Char) (small : c.toNat < 0x80) : (Gate.lowerChar c).toNat < 0x80 := by
    have notKelvin : c ≠ '\u212A' := by
      rintro rfl
      exact absurd small (by decide)
    rw [Gate.lowerChar, if_neg notKelvin]
    delta Char.toLower
    split
    · next capital =>
      have bound : c.val.toNat ≤ 90 := capital.2
      simp only [Char.toNat, UInt32.toNat_add]
      change (c.val.toNat + 32) % 2 ^ 32 < 0x80
      omega
    · exact small
  have comparable : (g.expected.any fun c => decide (c.toNat ≥ 0x80)) = false := by
    refine List.any_eq_false.mpr fun c member => ?_
    obtain ⟨source, inside, rfl⟩ := List.mem_map.mp member
    simpa using lower source (ascii source inside)
  cases password with
  | none => exact ⟨false, rfl⟩
  | some text =>
    rw [accepts, comparable]
    split
    · exact ⟨false, rfl⟩
    · exact ⟨_, rfl⟩

end Gate

/-- The look at the ban list lets an identity pass if it does not fail and the identity is not banned. -/
theorem BanList.runOn_isBanned_eq_false_iff (identity : String) (w : World) :
    ((isBanned identity).runOn w).1 = .ok false ↔
      w.backend.faults w.backend.calls (.get (Key.ban identity)) = none ∧ ¬ w.backend.store.IsBanned identity := by
  rw [isBanned_eq, Program.runOn, Program.converse]
  cases fault : w.backend.faults w.backend.calls (.get (Key.ban identity)) with
  | some message =>
    rw [Backend.call_of_fault fault]
    refine ⟨fun passes => ?_, fun passes => ?_⟩
    · cases passes
    · cases passes.1
  | none =>
    rw [Backend.call_of_no_fault fault]
    refine ⟨fun passes => ⟨rfl, of_decide_eq_false (Except.ok.inj passes)⟩, fun passes => ?_⟩
    exact congrArg Except.ok (decide_eq_false passes.2)

namespace AuditTables

/-- The tables with more rows at the end of two of them; the elevations are numbered on. -/
def extend (t : AuditTables) (commands : List CommandRow) (elevations : List (String × Bool)) : AuditTables :=
  { t with
    commands := t.commands ++ commands
    elevations := t.elevations ++ (elevations.zipIdx (t.elevations.length + 1)).map fun r => ⟨r.2, r.1.1, r.1.2⟩ }

theorem extend_nil (t : AuditTables) : t.extend [] [] = t := by
  simp [extend]

theorem extend_extend (t : AuditTables) (commands commands' : List CommandRow) (elevations elevations' : List (String × Bool)) :
    (t.extend commands elevations).extend commands' elevations' =
      t.extend (commands ++ commands') (elevations ++ elevations') := by
  simp only [extend, List.zipIdx_append, List.map_append, List.append_assoc, List.length_append, List.length_map,
    List.length_zipIdx]
  rw [Nat.add_right_comm]

end AuditTables

namespace AuditDatabase

variable {t : AuditTables}

/-- An open database takes in every command of an identity. -/
theorem insertCommand_of_open (opened : t.closed = false) (row : CommandRow) :
    ((enabled t).insertCommand (some row.identity) row.command row.elevated).1 = enabled (t.extend [row] []) := by
  rw [insertCommand, change, if_neg (Bool.eq_false_iff.mp opened)]
  simp [required, AuditTables.extend]

/-- An open database takes in every check of an identity. -/
theorem insertElevation_of_open (opened : t.closed = false) (identity : String) (success : Bool) :
    ((enabled t).insertElevation (some identity) success).1 = enabled (t.extend [] [(identity, success)]) := by
  rw [insertElevation, change, if_neg (Bool.eq_false_iff.mp opened)]
  simp [required, AuditTables.extend]

end AuditDatabase

namespace Chat

/-- Whether a message gets past the ban list: it comes from an identity, the look at the list does not fail, and the
identity is not banned. -/
def PassesBans (c : Chat) (identity : String) : Prop :=
  identity ≠ "" ∧ c.world.backend.faults c.world.backend.calls (.get (Key.ban identity)) = none ∧
    ¬ c.world.backend.store.IsBanned identity

instance (c : Chat) (identity : String) : Decidable (c.PassesBans identity) :=
  inferInstanceAs (Decidable (_ ∧ _ ∧ _))

/-- The row that a request adds to the commands. -/
def commandRow? (c : Chat) : Step → Option CommandRow
  | .respond _ _ => none
  | .handle identity message password =>
    if c.PassesBans identity ∧ commandOf message ≠ "" ∧
        (wantsElevation (commandOf message) = true → c.gate.accepts password = .ok true) then
      some ⟨identity, some (commandOf message), wantsElevation (commandOf message)⟩
    else none

/-- What a request adds to the elevations: whose check it was, and whether an elevation was issued. -/
def elevationRow? (c : Chat) : Step → Option (String × Bool)
  | .respond _ _ => none
  | .handle identity message password =>
    if c.PassesBans identity ∧ commandOf message ≠ "" ∧ wantsElevation (commandOf message) = true then
      some (identity, c.gate.issues identity password)
    else none

/-- What the requests of a run add, in order. -/
def added {ρ : Type} (row? : Chat → Step → Option ρ) (c : Chat) : List Step → List ρ
  | [] => []
  | s :: rest => (row? c s).toList ++ (c.step s).2.added row? rest

variable {c : Chat} {t : AuditTables} {identity command message : String} {password : Answer}

theorem database_audit (c : Chat) (change : AuditDatabase → AuditDatabase × List Event) :
    (c.audit change).database = c.database.map fun db => (change db).1 := by
  rw [audit]
  cases database : c.database with
  | none => exact database
  | some db => rfl

/-- A launch records its command. -/
theorem database_launch (database : c.database = some (.enabled t)) (opened : t.closed = false) (granted : Option Elevation) :
    (c.launch identity command granted).2.database =
      some (.enabled (t.extend [⟨identity, some command, granted.isSome⟩] [])) := by
  have recorded := AuditDatabase.insertCommand_of_open opened ⟨identity, some command, granted.isSome⟩
  exact (database_audit c _).trans (by rw [database, Option.map_some, recorded])

/-- A check records what came of it, and the command after it unless the password is wrong. -/
theorem database_challenge (database : c.database = some (.enabled t)) (opened : t.closed = false) (ascii : c.gate.IsAscii) :
    (c.challenge identity command password).2.database =
      some (.enabled (t.extend
        (if wantsElevation command = true → c.gate.accepts password = .ok true then
          [⟨identity, some command, wantsElevation command⟩] else [])
        (if wantsElevation command = true then [(identity, c.gate.issues identity password)] else []))) := by
  rw [challenge]
  cases wants : wantsElevation command with
  | false =>
    rw [if_neg Bool.false_ne_true, if_neg Bool.false_ne_true,
      if_pos fun wanted => absurd wanted Bool.false_ne_true]
    exact database_launch database opened none
  | true =>
    obtain ⟨granted, checked⟩ := ascii.exists_accepts password
    have recorded (success : Bool) (event : Event) :
        ((c.record event).audit fun db => db.insertElevation (some identity) success).database =
          some (.enabled (t.extend [] [(identity, success)])) := by
      have row := AuditDatabase.insertElevation_of_open opened identity success
      exact (database_audit _ _).trans (by rw [show (c.record event).database = _ from database, Option.map_some, row])
    rw [if_pos rfl, if_pos rfl, Gate.issues, Gate.verify, checked]
    cases granted with
    | false =>
      rw [if_neg (by simp)]
      exact recorded false _
    | true =>
      rw [if_pos fun _ => rfl, ← List.nil_append [_], ← List.append_nil [(identity, _)], ← AuditTables.extend_extend]
      exact database_launch (recorded true _) opened (some _)

/-- A message that gets past the ban list with a command is checked; the look at the list changes only the store. -/
theorem handle_of_passesBans (passes : c.PassesBans identity) (filled : commandOf message ≠ "") (password : Answer) :
    ∃ world, c.handle identity message password =
      Chat.challenge { c with world := world } identity (commandOf message) password := by
  obtain ⟨named, free⟩ := passes
  have looked := (BanList.runOn_isBanned_eq_false_iff identity c.world).mpr free
  rw [handle, if_neg named]
  generalize (BanList.isBanned identity).runOn c.world = ran at looked
  obtain ⟨result, world⟩ := ran
  obtain rfl : result = .ok false := looked
  refine ⟨world, ?_⟩
  dsimp only
  rw [if_neg Bool.false_ne_true, if_neg filled]

/-- A message that does not leaves the audit database alone. -/
theorem database_handle_of_not_passes (stopped : ¬ (c.PassesBans identity ∧ commandOf message ≠ "")) (password : Answer) :
    (c.handle identity message password).2.database = c.database := by
  have looked := BanList.runOn_isBanned_eq_false_iff identity c.world
  rw [handle]
  split
  · rfl
  · next named =>
    generalize (BanList.isBanned identity).runOn c.world = ran at looked
    obtain ⟨error | banned, world⟩ := ran
    · rfl
    · dsimp only
      split
      · rfl
      · next notBanned =>
        split
        · rfl
        · next filled =>
          have passes : c.PassesBans identity := ⟨named, looked.mp (congrArg Except.ok (Bool.eq_false_iff.mpr notBanned))⟩
          exact absurd ⟨passes, filled⟩ stopped

/-- A request adds its rows to an open database, and nothing else. -/
theorem database_step (database : c.database = some (.enabled t)) (opened : t.closed = false) (ascii : c.gate.IsAscii)
    (s : Step) :
    (c.step s).2.database = some (.enabled (t.extend (c.commandRow? s).toList (c.elevationRow? s).toList)) := by
  cases s with
  | respond identity answer =>
    rw [step, database_respond, database, commandRow?, elevationRow?]
    exact congrArg (some ∘ AuditDatabase.enabled) t.extend_nil.symm
  | handle identity message password =>
    rw [step, commandRow?, elevationRow?]
    by_cases passes : c.PassesBans identity ∧ commandOf message ≠ ""
    · obtain ⟨world, checked⟩ := handle_of_passesBans passes.1 passes.2 password
      have recorded := @database_challenge { c with world := world } t identity (commandOf message) password database
        opened ascii
      rw [checked, recorded, apply_ite Option.toList, apply_ite Option.toList]
      simp only [and_iff_right passes.1, and_iff_right passes.2, Option.toList_some, Option.toList_none]
    · have same := database_handle_of_not_passes passes password
      rw [same, database, if_neg fun row => passes ⟨row.1, row.2.1⟩, if_neg fun row => passes ⟨row.1, row.2.1⟩]
      exact congrArg (some ∘ AuditDatabase.enabled) t.extend_nil.symm

/-- A run adds the rows of its requests in their order. -/
theorem database_after (database : c.database = some (.enabled t)) (opened : t.closed = false) (ascii : c.gate.IsAscii)
    (steps : List Step) :
    (c.after steps).database =
      some (.enabled (t.extend (c.added commandRow? steps) (c.added elevationRow? steps))) := by
  induction steps generalizing c t with
  | nil => exact database.trans (congrArg (some ∘ AuditDatabase.enabled) t.extend_nil.symm)
  | cons s rest ih =>
    have first := database_step database opened ascii s
    have later := ih first opened (gate_step c s ▸ ascii)
    rw [AuditTables.extend_extend] at later
    exact later

/-- A command is granted elevation exactly if it asks for it, and then the password was right. -/
theorem accepted_of_grants {granted : Option Elevation} {c' : Chat}
    (grants : c.grants identity command password = some (granted, c')) :
    (wantsElevation command = true → c.gate.accepts password = .ok true) ∧ wantsElevation command = granted.isSome := by
  have accepted := (challenge_of_granted grants).2.1
  rw [Chat.grants] at grants
  split at grants
  · next wants =>
    split at grants
    · obtain ⟨rfl, rfl⟩ := Prod.mk.inj (Option.some.inj grants)
      exact ⟨fun _ => accepted rfl, wants⟩
    · cases grants
  · next plain =>
    obtain ⟨rfl, rfl⟩ := Prod.mk.inj (Option.some.inj grants)
    exact ⟨fun wants => absurd wants plain, Bool.eq_false_iff.mpr plain⟩

/-- A message that starts a line has its row, with the flag of the elevation that the line is granted. -/
theorem commandRow?_of_admits {granted : Option Elevation} {c' : Chat}
    (admits : c.admits identity message password = some (granted, c')) :
    c.commandRow? (.handle identity message password) = some ⟨identity, some (commandOf message), granted.isSome⟩ := by
  have looked := BanList.runOn_isBanned_eq_false_iff identity c.world
  rw [Chat.admits] at admits
  split at admits
  · cases admits
  · next named =>
    generalize (BanList.isBanned identity).runOn c.world = ran at admits looked
    obtain ⟨error | banned, world⟩ := ran
    · cases admits
    · dsimp only at admits
      split at admits
      · cases admits
      · next free =>
        obtain ⟨notBanned, filled⟩ := not_or.mp free
        obtain rfl : banned = false := Bool.eq_false_iff.mpr notBanned
        have passes : c.PassesBans identity := ⟨named, looked.mp rfl⟩
        obtain ⟨⟨granted, c''⟩, grants, launches⟩ := Option.map_eq_some_iff.mp admits
        obtain ⟨rfl, rfl⟩ := Prod.mk.inj launches
        obtain ⟨accepted, flag⟩ := accepted_of_grants grants
        rw [commandRow?, if_pos ⟨passes, filled, accepted⟩, flag]

/-- Whether a line was started by one of some requests to a chat that added the row of this line to the commands. -/
def Launch.Recorded (l : Launch) (start : Chat) (steps : List Step) : Prop :=
  ∃ before later, steps = before ++ .handle l.identity l.message l.password :: later ∧
    (start.after before).commandRow? (.handle l.identity l.message l.password) =
      some ⟨l.identity, some (commandOf l.message), l.granted.isSome⟩

theorem Launch.Made.recorded {l : Launch} {start : Chat} {steps : List Step} (made : l.Made start steps) :
    l.Recorded start steps := by
  obtain ⟨before, later, c, cut, admits⟩ := made
  exact ⟨before, later, cut, commandRow?_of_admits admits⟩

/-- A step that does nothing with any line leaves the store alone. -/
theorem Watched.Faithful.store_of_idle {w : Watched} (faithful : w.Faithful) {s : Step} (idle : w.deed s = none) :
    (w.chat.step s).2.world.backend.store = w.chat.world.backend.store := by
  cases s with
  | handle identity message password =>
    rw [deed] at idle
    split at idle
    · next refused => exact (handle_of_not_admitted refused).store
    · next granted c admits =>
      have admitted := admitted_of_admits admits
      split at idle
      · next error shell world failed =>
        have store := Shell.store_begin_of_error (congrArg Prod.fst failed)
        rw [failed] at store
        rw [Chat.step, admitted.handled, delegate, Shell.exec, failed]
        exact store.trans admitted.same.store
      · cases idle
  | respond identity answer =>
    refine store_respond_of_idle ?_ answer
    rw [faithful.pending, Option.map_eq_none_iff.mp idle]
    rfl

/-- The audit trail is complete and exact. In every run of a chat in which nothing waits at first, with an open audit
database and an ASCII digest, from any store and with any faults:

- the tables grow by one row of the commands for each message that gets past the ban list with a command and, if that
  asks for elevation, with the right password, and by one row of the elevations for each message that gets past the ban
  list with a command that asks for elevation, in the order of the messages, and by nothing else;
- what a step does beyond that is to start a line or to carry one on, and the line was started by a request of this run
  that added the row of that line; a step that does neither changes neither the store nor what waits. -/
theorem audit_trail_exact {start : Chat} {tables : AuditTables} (fresh : start.shells = [])
    (database : start.database = some (.enabled tables)) (opened : tables.closed = false) (ascii : start.gate.IsAscii)
    (steps : List Step) :
    (start.after steps).database =
        some (.enabled (tables.extend (start.added commandRow? steps) (start.added elevationRow? steps))) ∧
      ∀ next,
        match (start.watch steps).deed next with
        | some d => (start.watch steps).Carried next d ∧ d.launch.Recorded start (steps ++ [next])
        | none =>
          ((start.after steps).step next).2.world.backend.store = (start.after steps).world.backend.store ∧
            ∀ identity, (((start.after steps).step next).2.shellOf identity).pending =
              ((start.after steps).shellOf identity).pending := by
  refine ⟨database_after database opened ascii steps, fun next => ?_⟩
  have faithful := faithful_watch fresh steps
  have watched := chat_watch start steps
  split
  · next d found =>
    exact ⟨faithful.carried found, (Watched.deed_made watched (made_watch start steps) found).recorded⟩
  · next none =>
    rw [← watched]
    exact ⟨faithful.store_of_idle none, (faithful.idle none).pending⟩

/-- One identity bans another, whose message then goes nowhere, and a third asks for elevation in vain before its
editor waits and gets its answer. -/
def auditedRun : List Step :=
  [.handle "bob" "/shell sudo ban eve" (some "z"), .handle "eve" "ls" none, .handle "alice" "sudo ls" (some "y"),
    .handle "alice" " " none, .handle "alice" "vim f" none, .respond "alice" (some "t")]

/-- Of such a run two commands and two checks are recorded. -/
theorem audit_trail_exact_on_ban :
    blank.gate.IsAscii ∧
      (({ blank with database := some (.enabled {}) } : Chat).after auditedRun).database = some (.enabled
        { commands := [⟨"bob", some "sudo ban eve", true⟩, ⟨"alice", some "vim f", false⟩]
          elevations := [⟨1, "bob", true⟩, ⟨2, "alice", false⟩] }) := by
  have ascii : blank.gate.IsAscii := by decide
  obtain ⟨rows, -⟩ := @audit_trail_exact { blank with database := some (.enabled {}) } {} rfl rfl rfl ascii auditedRun
  exact ⟨ascii, rows.trans (by decide +kernel)⟩

end Chat

end TreeShell
