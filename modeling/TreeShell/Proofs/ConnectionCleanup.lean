import TreeShell.Proofs.Connection.Handling

/-! # The end of a connection

However a connection goes, it ends in order: without an error, with one record of its end, which is the last in the log of
the sessions, with the socket and the transport closed, and with its row in the audit database closed if it has one. It has
one exactly if a channel opened, which the transport may refuse to a user who was let in.
-/

namespace TreeShell

/-- Whether an event goes to the log of the sessions. -/
def Event.isSession (e : Event) : Bool :=
  e.log = .sessions

/-- Whether an event tells that a connection has ended. -/
def Event.isEnd : Event → Bool
  | .sessionEnded _ _ => true
  | _ => false

/-- A console has nothing to say about sessions. -/
theorem Event.OfConsole.not_isSession {name : String} {e : Event} (console : e.OfConsole name) : e.isSession = false := by
  cases console with
  | request request =>
    cases request with
    | line line => cases line <;> rfl
    | _ => rfl
  | failure => rfl

theorem Connection.OfApproach.not_isEnd {source : String} {e : Event} (approach : OfApproach source e) : e.isEnd = false := by
  cases approach <;> rfl

namespace Connection

variable {client : Client} {c d : Chat}

/-- What a connection logs of its session begins with its beginning and ends with its end, which comes once. -/
theorem Handled.session_events (handled : Handled client c d) :
    ∃ between, d.world.events.filter Event.isSession = c.world.events.filter Event.isSession ++
        .sessionConnected client.source client.port :: between ++
          [.sessionEnded client.source (client.user?.getD "")] ∧
      ∀ e ∈ between, e.isEnd = false := by
  obtain ⟨console, rest, events, kind⟩ := handled.events
  -- neither the console nor the audit database logs anything of the session
  have silent {part : List Event} (inside : part ⊆ console ++ rest) : part.filter Event.isSession = [] := by
    refine List.filter_eq_nil_iff.mpr fun e member => ?_
    obtain ⟨name, -, ofConsole⟩ := kind e (inside member)
    rw [ofConsole.not_isSession]
    exact Bool.false_ne_true
  refine ⟨(client.greeting.tail ++ client.approach).filter Event.isSession, ?_, fun e member => ?_⟩
  · have begins : client.greeting ++ client.approach =
        .sessionConnected client.source client.port :: (client.greeting.tail ++ client.approach) := rfl
    rw [events, begins, List.filter_append, List.filter_append, List.filter_append, silent (List.subset_append_left _ _),
      List.append_nil, List.filter_cons_of_pos rfl, List.filter_cons_of_pos rfl, silent (List.subset_append_right _ _)]
  · rcases List.mem_append.mp (List.mem_of_mem_filter member) with greets | approaches
    · exact (client.ofApproach_greeting e (List.mem_of_mem_tail greets)).not_isEnd
    · exact (client.ofApproach_approach e approaches).not_isEnd

/-- What is left when a connection has ended. -/
structure CleanedUp (client : Client) (c : Chat) (rows : List SessionRow) (k : Connection) : Prop where
  returns : k.failure = none
  /-- The first record of the session is that of its beginning; the last one is that of its end, and the only such. -/
  events : ∃ between, k.chat.world.events.filter Event.isSession = c.world.events.filter Event.isSession ++
      .sessionConnected client.source client.port :: between ++
        [.sessionEnded client.source (client.user?.getD "")] ∧
    ∀ e ∈ between, e.isEnd = false
  /-- A channel opens if nothing fails and the transport hands one over. -/
  opens : client.user?.isSome ↔
    client.transportError = none ∧ client.handshakeError = none ∧ client.channel.isSome
  /-- If a channel opened, then under the name of the attempt that was accepted last, and this is the user of the end. -/
  named : ∀ name, client.user? = some name →
    name = (client.login.attempts client.attempts).2.2.username ∧ k.identity = name
  unnamed : client.user? = none → k.identity = ""
  socket : k.socketOpen = false
  /-- There is a transport if it could be made, and then it is closed. -/
  transport : k.transportOpen = if client.transportError.isSome then none else some false
  /-- A row was inserted if a channel opened, and it is closed. -/
  inserted : k.chat.sessions? = some
    (match client.user? with
      | none => rows
      | some name => rows.map (SessionRow.endFor name) ++ [⟨name, some client.source, true⟩], false)

/-- What a connection holds at its end does not depend on how it went. -/
theorem handle_closed (client : Client) (c : Chat) :
    (handle client c).socketOpen = false ∧
      (handle client c).transportOpen = if client.transportError.isSome then none else some false := by
  have held : (proceed client { chat := c }).transportOpen =
      if client.transportError.isSome then none else some true := by
    rw [proceed_eq]
    cases client.opened? <;> rfl
  obtain ⟨socket, transport⟩ := conclude_closed client.source (proceed client { chat := c })
  refine ⟨socket, transport.trans ?_⟩
  rw [held]
  cases client.transportError <;> rfl

/-- Every connection is cleaned up. For every client, whatever it tries and sends and whatever fails, and whether or not
the transport hands over a channel to a user who was let in, on every chat whose shells wait for nothing but what is left
of lines that they began, with a digest that is ASCII and an audit database that is open. -/
theorem connection_cleaned_up (settled : c.Settled) (ascii : c.gate.IsAscii) {rows : List SessionRow}
    (opened : c.sessions? = some (rows, false)) (authenticated : client.Authenticated) :
    CleanedUp client c rows (handle client c) := by
  have handled := handled settled authenticated
  obtain ⟨socket, transport⟩ := handle_closed client c
  have inserted := handled.sessions
  rw [opened, Option.map_some, Client.sessionsAfter] at inserted
  constructor
  · exact failure_handle settled ascii authenticated
  · exact handled.session_events
  · exact client.isSome_user?
  · intro name opens
    rw [Login.attempts_login]
    exact ⟨(Client.accepted_of_user? authenticated opens).1, identity_handle c opens⟩
  · intro none
    exact identity_handle c none
  · exact socket
  · exact transport
  · rw [inserted]
    cases client.user? with
    | none => rfl
    | some name => simp [SessionRow.endFor]

/-- A client who sends one line over a connection that then breaks. -/
def stranded : Client :=
  Client.sending
    { source := "10.0.0.1"
      port := 50022
      expected := ⟨"", ""⟩
      hostKeyPresent := false
      attempts := [("", "x"), ("alice", "")]
      channel := none }
    ⟨[0x6C, 0x73, 0x0A], true⟩

/-- A client who is let in as well, but gets no channel. -/
def patient : Client :=
  { stranded with channel := none }

/-- A fresh chat with an audit database whose store is down. -/
def crippled : Chat :=
  { Chat.blank with
    database := some (.enabled {})
    world := { backend := { store := .empty, faults := fun _ _ => some "down" } } }

/-- Both connections are cleaned up; only the one with the channel leaves a row. -/
theorem connection_cleaned_up_stranded :
    crippled.Settled ∧ crippled.gate.IsAscii ∧ crippled.sessions? = some ([], false) ∧
      stranded.Authenticated ∧ patient.Authenticated ∧
      (handle stranded crippled).failure = none ∧ (handle stranded crippled).transportOpen = some false ∧
      (handle stranded crippled).chat.sessions? = some ([⟨"alice", some "10.0.0.1", true⟩], false) ∧
      (handle patient crippled).transportOpen = some false ∧ (handle patient crippled).identity = "" ∧
      (handle patient crippled).chat.sessions? = some ([], false) := by
  have settled : crippled.Settled := Chat.settled_of_fresh rfl
  have ascii : crippled.gate.IsAscii := by decide
  have entered : stranded.Authenticated := Client.authenticated_sending _ _
  have waits : patient.Authenticated := nofun
  have cleaned := connection_cleaned_up settled ascii rfl entered
  have cleaned' := connection_cleaned_up settled ascii rfl waits
  exact ⟨settled, ascii, rfl, entered, waits, cleaned.returns, cleaned.transport,
    cleaned.inserted.trans (by decide +kernel), cleaned'.transport, cleaned'.unnamed rfl, cleaned'.inserted⟩

end Connection

end TreeShell
