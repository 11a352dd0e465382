import TreeShell.Connection.Session
import TreeShell.Proofs.Connection.Logins
import TreeShell.Proofs.Console.Runs

/-! # What a connection comes to

A connection logs what happens until a channel opens for its user (`Client.user?`) or it ends without one. With a channel
it records the beginning of the session, runs a console, and records the end of all sessions of the user; in any case it
then gives back what it holds and logs its own end (`handle_eq`). Whether a channel opens is up to the transport, of which
nothing is known but that it hands over channels to users who were let in (`Client.Authenticated`). `handled` says what a
connection does to the shells, to the sessions and to the log.
-/

namespace TreeShell

/-- The row of a session after the end of those of an identity. -/
def SessionRow.endFor (identity : String) (r : SessionRow) : SessionRow :=
  if r.identity = identity then { r with closed := true } else r

theorem SessionRow.identity_endFor (identity : String) (r : SessionRow) : (r.endFor identity).identity = r.identity := by
  rw [endFor]
  split <;> rfl

/-- A change of the tables that never fails is refused by a closed database alone. -/
theorem AuditDatabase.sessions?_change_of_ok (db : AuditDatabase) (statement : String)
    (apply : AuditTables → Except AuditError AuditTables) (change : List SessionRow → List SessionRow)
    (changes : ∀ t, ∃ t', apply t = .ok t' ∧ t'.sessions = change t.sessions ∧ t'.closed = t.closed) :
    (db.change statement apply).1.sessions? = db.sessions?.map fun s => if s.2 then s else (change s.1, s.2) := by
  cases db with
  | disabled => rfl
  | enabled t =>
    obtain ⟨t', changed, sessions, closed⟩ := changes t
    rw [AuditDatabase.change]
    dsimp only
    cases opened : t.closed with
    | true => simp [sessions?, opened]
    | false => simp [sessions?, opened, changed, sessions, closed]

theorem AuditDatabase.sessions?_insertSession (db : AuditDatabase) (identity source : String) :
    (db.insertSession (some identity) (some source)).1.sessions? =
      db.sessions?.map fun s => if s.2 then s else (s.1 ++ [⟨identity, some source, false⟩], s.2) := by
  refine db.sessions?_change_of_ok _ _ (fun rows => rows ++ [⟨identity, some source, false⟩]) fun t => ?_
  exact ⟨{ t with sessions := t.sessions ++ [⟨identity, some source, false⟩] }, rfl, rfl, rfl⟩

theorem AuditDatabase.sessions?_closeSession (db : AuditDatabase) (identity : String) :
    (db.closeSession (some identity)).1.sessions? =
      db.sessions?.map fun s => if s.2 then s else (s.1.map (SessionRow.endFor identity), s.2) := by
  refine db.sessions?_change_of_ok _ _ (fun rows => rows.map (SessionRow.endFor identity)) fun t => ?_
  refine ⟨_, rfl, List.map_congr_left fun r _ => ?_, rfl⟩
  simp only [SessionRow.endFor, Option.some.injEq]

namespace Connection

/-! ## What comes of a transport -/

/-- Whether a transport hands over a channel, if at all, only after some attempt was accepted. -/
def Client.Authenticated (client : Client) : Prop :=
  client.channel.isSome → ∃ tried ∈ client.attempts, client.login.accepts tried = true

/-- What comes over the channel, if nothing fails before and the transport hands one over. -/
def Client.opened? (client : Client) : Option Console.Input :=
  match client.transportError, client.handshakeError with
  | none, none => client.channel
  | _, _ => none

/-- The user for whom a channel opens: the one whose attempt was accepted last. -/
def Client.user? (client : Client) : Option String :=
  client.opened?.map fun _ => client.login.nameAfter client.attempts

/-- What a connection logs at first. -/
def Client.greeting (client : Client) : List Event :=
  .sessionConnected client.source client.port :: if client.hostKeyPresent then [] else [.hostKeyGenerated hostKeyPath]

/-- What a connection logs then, until a channel opens or it ends without one. -/
def Client.approach (client : Client) : List Event :=
  match client.transportError, client.handshakeError with
  | some error, _ => [.sessionFailed client.source error]
  | none, some error => [.sessionFailed client.source error]
  | none, none =>
    (client.login.attempts client.attempts).2.1 ++
      if client.channel.isSome then [] else [.sessionWithoutChannel client.source]

/-- Whether an event is one that a connection from a source logs before a channel opens. -/
inductive OfApproach (source : String) : Event → Prop
  | connected (port : Int) : OfApproach source (.sessionConnected source port)
  | keyMade (path : String) : OfApproach source (.hostKeyGenerated path)
  | failed (error : String) : OfApproach source (.sessionFailed source error)
  | tried (username result : String) : OfApproach source (.loginAttempt source username result)
  | closed : OfApproach source (.sessionWithoutChannel source)

theorem Client.ofApproach_greeting (client : Client) : ∀ e ∈ client.greeting, OfApproach client.source e := by
  rw [greeting]
  refine List.forall_mem_cons.mpr ⟨.connected _, ?_⟩
  split
  · exact List.forall_mem_nil _
  · exact List.forall_mem_singleton.mpr (.keyMade _)

theorem Client.ofApproach_approach (client : Client) : ∀ e ∈ client.approach, OfApproach client.source e := by
  rw [approach]
  split
  · exact List.forall_mem_singleton.mpr (.failed _)
  · exact List.forall_mem_singleton.mpr (.failed _)
  · refine List.forall_mem_append.mpr ⟨fun e member => ?_, ?_⟩
    · obtain ⟨username, result, rfl⟩ := client.login.attempts_events client.attempts e member
      exact .tried username result
    · split
      · exact List.forall_mem_nil _
      · exact List.forall_mem_singleton.mpr .closed

variable {client : Client} {name : String}

/-- A client who opens a channel when its last attempt is accepted was let in. -/
theorem Client.authenticated_sending (client : Client) (input : Console.Input) : (client.sending input).Authenticated := by
  intro opens
  have accepted : client.attempts.getLast?.any client.login.accepts = true := by
    rw [← Login.attempts_accepted]
    by_contra refused
    simp [sending, refused] at opens
  obtain ⟨last, found, accepts⟩ := (Option.any_eq_true ..).mp accepted
  exact ⟨last, List.mem_of_getLast? found, accepts⟩

/-- A channel opens for a user whose attempt was accepted. -/
theorem Client.accepted_of_user? (authenticated : client.Authenticated) (opens : client.user? = some name) :
    name = client.login.nameAfter client.attempts ∧ name ≠ "" ∧
      ∃ password, (name, password) ∈ client.attempts ∧ client.login.accepts (name, password) = true := by
  obtain ⟨input, opened, rfl⟩ := Option.map_eq_some_iff.mp opens
  have handed : client.channel = some input := by
    rw [opened?] at opened
    split at opened
    · exact opened
    · cases opened
  obtain ⟨password, member, accepted⟩ := Login.exists_accepted (authenticated (Option.isSome_of_eq_some handed))
  exact ⟨rfl, Login.ne_empty_of_accepts accepted, password, member, accepted⟩

theorem Client.isSome_user? (client : Client) :
    client.user?.isSome ↔ client.transportError = none ∧ client.handshakeError = none ∧ client.channel.isSome := by
  rw [user?, Option.isSome_map, opened?]
  cases client.transportError <;> cases client.handshakeError <;> simp

/-! ## The steps of a connection -/

theorem recordAll_eq (c : Chat) (events : List Event) :
    recordAll c events = { c with world := { c.world with events := c.world.events ++ events } } := by
  rw [recordAll, World.foldl_record]

theorem sameShells_recordAll (c : Chat) (events : List Event) : c.SameShells (recordAll c events) := by
  rw [recordAll_eq]
  exact ⟨rfl, rfl, rfl, rfl⟩

theorem events_recordAll (c : Chat) (events : List Event) :
    (recordAll c events).world.events = c.world.events ++ events := by
  rw [recordAll_eq]

theorem sessions?_recordAll (c : Chat) (events : List Event) : (recordAll c events).sessions? = c.sessions? :=
  rfl

/-- What is logged in several steps can be logged in one. -/
theorem note_note (k : Connection) (events later : List Event) :
    (k.note events).note later = k.note (events ++ later) := by
  rw [note, note, note, recordAll, recordAll, recordAll, List.foldl_append]

/-- A connection that is at its end holds nothing any more: its socket is closed, and so is its transport if it had one. -/
theorem conclude_closed (source : String) (k : Connection) :
    (k.conclude source).socketOpen = false ∧
      (k.conclude source).transportOpen = if k.transportOpen.isSome then some false else none := by
  refine ⟨rfl, ?_⟩
  rw [conclude, release]
  cases k.transportOpen <;> rfl

/-- With a transport, a connection runs a console if a channel opens, and else logs why there is none. -/
theorem serve_eq (made : client.transportError = none) (k : Connection) :
    serve client k =
      match client.opened? with
      | none => k.note client.approach
      | some input => (k.note client.approach).attend client.source (client.login.nameAfter client.attempts) input := by
  rw [serve, Client.approach, Client.opened?, made]
  cases client.handshakeError with
  | some error => rfl
  | none =>
    dsimp only
    rw [Login.attempts_login]
    cases client.channel with
    | none => exact note_note ..
    | some input => rw [Option.isSome_some, if_pos rfl, List.append_nil]

/-- A connection where a channel opens for its user, or where it ends without one. -/
def Client.reached (client : Client) (c : Chat) : Connection where
  chat := recordAll c (client.greeting ++ client.approach)
  transportOpen := if client.transportError.isSome then none else some true

/-- A connection before its end. -/
theorem proceed_eq (client : Client) (c : Chat) :
    proceed client { chat := c } =
      match client.opened? with
      | none => client.reached c
      | some input => (client.reached c).attend client.source (client.login.nameAfter client.attempts) input := by
  have greeted (k : Connection) : (if client.hostKeyPresent then k.note [.sessionConnected client.source client.port]
      else (k.note [.sessionConnected client.source client.port]).note [.hostKeyGenerated hostKeyPath]) =
      k.note client.greeting := by
    rw [Client.greeting]
    cases client.hostKeyPresent <;> rfl
  rw [proceed, greeted]
  cases made : client.transportError with
  | some error =>
    have unopened : client.opened? = none := by rw [Client.opened?, made]
    have failed : client.approach = [.sessionFailed client.source error] := by rw [Client.approach, made]
    rw [unopened, Client.reached, made, failed]
    exact note_note ..
  | none =>
    have reached : client.reached c = (({ chat := c } : Connection).note client.greeting).openTransport.note client.approach := by
      rw [Client.reached, made, recordAll, List.foldl_append]
      rfl
    rw [reached]
    exact serve_eq made _

/-- The connection ends in the name of the user for whom a channel opened. -/
theorem identity_handle {user : Option String} (c : Chat) (opens : client.user? = user) :
    (handle client c).identity = user.getD "" := by
  rw [← opens, Client.user?, handle, proceed_eq]
  cases client.opened? <;> rfl

/-! ## Sessions -/

theorem sessions?_begin (source identity : String) (c : Chat) :
    (begin source identity c).sessions? =
      c.sessions?.map fun s => if s.2 then s else (s.1 ++ [⟨identity, some source, false⟩], s.2) := by
  rw [begin, Chat.sessions?_audit, Chat.sessions?, Option.map_bind]
  exact congrArg (Option.bind c.database) (funext fun db => db.sessions?_insertSession identity source)

theorem sessions?_finish {identity : String} (filled : identity ≠ "") (source : String) (c : Chat) :
    (finish source identity c).sessions? =
      c.sessions?.map fun s => if s.2 then s else (s.1.map (SessionRow.endFor identity), s.2) := by
  rw [finish, if_neg filled, Chat.sessions?_audit, Chat.sessions?, Option.map_bind]
  exact congrArg (Option.bind c.database) (funext fun db => db.sessions?_closeSession identity)

theorem sameShells_begin (source identity : String) (c : Chat) : c.SameShells (begin source identity c) :=
  c.sameShells_audit _

theorem went_begin (source identity : String) (c : Chat) :
    c.world.Went identity [] (begin source identity c).world :=
  c.went_audit ..

theorem sameShells_finish (source identity : String) (c : Chat) : c.SameShells (finish source identity c) := by
  rw [finish]
  split
  · exact ⟨rfl, rfl, rfl, rfl⟩
  · exact Chat.sameShells_checked ..

/-- A connection logs its end, and after it at most that the database refused to learn of it. -/
theorem events_finish (source identity : String) (c : Chat) :
    ∃ rest, (finish source identity c).world.events = c.world.events ++ .sessionEnded source identity :: rest ∧
      (∀ e ∈ rest, e.OfRequest identity) ∧ (identity = "" → rest = []) := by
  rw [finish]
  split
  · exact ⟨[], rfl, List.forall_mem_nil _, fun _ => rfl⟩
  · next filled =>
    obtain ⟨rest, events, kind⟩ :=
      ((c.record (.sessionEnded source identity)).went_audit identity _ _).events
    refine ⟨rest, events.trans ?_, kind, fun blank => absurd blank filled⟩
    exact List.append_assoc ..

/-! ## The whole connection -/

/-- The sessions after a connection: an open database takes in the one of the user for whom a channel opened, and ends it
with all others of that user. -/
def Client.sessionsAfter (client : Client) (s : List SessionRow × Bool) : List SessionRow × Bool :=
  match client.user? with
  | none => s
  | some name =>
    if s.2 then s else (List.map (SessionRow.endFor name) (s.1 ++ [⟨name, some client.source, false⟩]), s.2)

/-- What a connection does to a chat. -/
structure Handled (client : Client) (c d : Chat) : Prop where
  settled : d.Settled
  gate : d.gate = c.gate
  shells : ∀ other, client.user? ≠ some other → d.shellOf other = c.shellOf other
  sessions : d.sessions? = c.sessions?.map client.sessionsAfter
  /-- Between its approach and its end it logs what a console of the user logs. -/
  events : ∃ console rest, d.world.events = c.world.events ++ (client.greeting ++ client.approach) ++ console ++
      .sessionEnded client.source (client.user?.getD "") :: rest ∧
    ∀ e ∈ console ++ rest, ∃ name ∈ client.user?, e.OfConsole name

/-- Without a channel, a connection only logs. -/
theorem handled_unopened {c : Chat} (settled : c.Settled) (unopened : client.user? = none) :
    Handled client c (finish client.source "" (recordAll c (client.greeting ++ client.approach))) := by
  have enters := sameShells_recordAll c (client.greeting ++ client.approach)
  have ends := enters.trans (sameShells_finish client.source "" _)
  obtain ⟨rest, events, -, nothing⟩ :=
    events_finish client.source "" (recordAll c (client.greeting ++ client.approach))
  refine ⟨settled.of_shells ends.shells, ends.gate, fun other _ => ends.shellOf other, ?_, [], rest, ?_, ?_⟩
  · have kept : client.sessionsAfter = id := by
      funext s
      rw [Client.sessionsAfter, unopened]
      rfl
    rw [kept, Option.map_id, id, ← sessions?_recordAll c (client.greeting ++ client.approach)]
    rfl
  · rw [unopened, List.append_nil, ← events_recordAll]
    exact events
  · rw [nothing rfl]
    exact List.forall_mem_nil _

/-- With a channel, it runs a console between the beginning and the end of a session. -/
theorem handled_opened {c : Chat} (settled : c.Settled) (opens : client.user? = some name) (filled : name ≠ "")
    (input : Console.Input) :
    Handled client c (finish client.source name
      (Console.run name (begin client.source name (recordAll c (client.greeting ++ client.approach))) input).chat) := by
  have approached := events_recordAll c (client.greeting ++ client.approach)
  have sessions := sessions?_recordAll c (client.greeting ++ client.approach)
  have enters := sameShells_recordAll c (client.greeting ++ client.approach)
  generalize recordAll c (client.greeting ++ client.approach) = d at approached sessions enters
  have begins := enters.trans (sameShells_begin client.source name d)
  -- neither the log nor the audit database has a part in what the shells have suspended
  have begun : (begin client.source name d).Settled := settled.of_shells begins.shells
  have attended := Console.attended begun filled input
  generalize (Console.run name (begin client.source name d) input).chat = e at attended
  have ends := sameShells_finish client.source name e
  refine ⟨attended.settled.of_shells ends.shells, ends.gate.trans (attended.gate.trans begins.gate),
    fun other differs => ?_, ?_, ?_⟩
  · rw [ends.shellOf, attended.others other fun same => differs (opens.trans (congrArg some same.symm))]
    exact begins.shellOf other
  · rw [sessions?_finish filled, attended.sessions, sessions?_begin, sessions, Option.map_map]
    refine congrArg (Option.map · c.sessions?) (funext fun s => ?_)
    rw [Client.sessionsAfter, opens]
    obtain ⟨rows, closed⟩ := s
    cases closed <;> rfl
  · obtain ⟨refusals, beginning, refused⟩ := (went_begin client.source name d).events
    obtain ⟨logged, during, kind, -⟩ := attended.events
    obtain ⟨rest, ending, after, -⟩ := events_finish client.source name e
    refine ⟨refusals ++ logged, rest, ?_, ?_⟩
    · rw [ending, during, beginning, approached, opens]
      simp only [List.append_assoc, Option.getD_some]
    · intro e member
      refine ⟨name, opens, ?_⟩
      rcases List.mem_append.mp member with early | late
      · rcases List.mem_append.mp early with refusal | command
        · exact .request (refused e refusal)
        · exact kind e command
      · exact .request (after e late)

theorem handled {c : Chat} (settled : c.Settled) (authenticated : client.Authenticated) :
    Handled client c (handle client c).chat := by
  rw [handle, proceed_eq]
  cases opened : client.opened? with
  | none => exact handled_unopened settled (by rw [Client.user?, opened, Option.map_none])
  | some input =>
    have opens : client.user? = some (client.login.nameAfter client.attempts) := by
      rw [Client.user?, opened, Option.map_some]
    obtain ⟨-, filled, -⟩ := Client.accepted_of_user? authenticated opens
    exact handled_opened settled opens filled input

/-- Unless the digest is not ASCII, a connection is handled without an error. -/
theorem failure_handle {c : Chat} (settled : c.Settled) (ascii : c.gate.IsAscii) (authenticated : client.Authenticated) :
    (handle client c).failure = none := by
  rw [handle, proceed_eq]
  cases opened : client.opened? with
  | none => rfl
  | some input =>
    have opens : client.user? = some (client.login.nameAfter client.attempts) := by
      rw [Client.user?, opened, Option.map_some]
    obtain ⟨-, filled, -⟩ := Client.accepted_of_user? authenticated opens
    have begun := (sameShells_recordAll c (client.greeting ++ client.approach)).trans
      (sameShells_begin client.source (client.login.nameAfter client.attempts) _)
    exact Console.returns (settled.of_shells begun.shells) (begun.gate ▸ ascii) filled input

end Connection

end TreeShell
