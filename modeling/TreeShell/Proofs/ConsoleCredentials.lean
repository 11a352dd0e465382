import TreeShell.Proofs.Connection.Handling

/-! # The credentials of the console

What a connection expects is a user and a password. With a user, only that pair is let in. Without one everybody who gives
a name is let in, whatever the password, also if a password is expected (`configured_password_ignored`). In any case a
connection acts for nobody but the user whose attempt was accepted last.
-/

namespace TreeShell

/-- Whether an attempt has what is expected: the user, if one is, and the password. -/
def Credentials.Match (e : Credentials) (username password : String) : Prop :=
  (e.user ≠ "" → username = e.user) ∧ password = e.password

instance (e : Credentials) (username password : String) : Decidable (e.Match username password) :=
  inferInstanceAs (Decidable ((_ → _) ∧ _))

/-- What is accepted has what is expected, exactly if a user is. -/
theorem Login.match_of_accepts_iff (l : Login) :
    (∀ username password, l.accepts (username, password) = true → l.expected.Match username password) ↔
      l.expected.user ≠ "" := by
  constructor
  · intro enforced unnamed
    -- without a user, two different passwords are accepted
    have any (password : String) : password = l.expected.password :=
      (enforced "alice" password (accepts_iff.mpr (by rw [if_pos unnamed]; decide))).2
    exact absurd ((any "").trans (any "x").symm) (by decide)
  · intro named username password accepted
    have right := accepts_iff.mp accepted
    rw [if_neg named] at right
    exact ⟨fun _ => right.1, right.2⟩

/-- Lines that a console runs are those of its user. -/
theorem Event.OfConsole.identity_eq {name identity cwd command : String} {elevated : Bool}
    (runs : (shellCommand identity cwd command elevated).OfConsole name) : identity = name := by
  cases runs with
  | request request =>
    cases request with
    | line line => cases line
    | began => rfl

namespace Connection

variable {client : Client} {c d : Chat}

/-- A connection runs lines of the user for whom a channel opened, and of nobody else. -/
theorem Handled.command (handled : Handled client c d) {identity cwd command : String} {elevated : Bool}
    (runs : .shellCommand identity cwd command elevated ∈ d.world.events) :
    .shellCommand identity cwd command elevated ∈ c.world.events ∨ client.user? = some identity := by
  obtain ⟨console, rest, events, kind⟩ := handled.events
  have inside (member : .shellCommand identity cwd command elevated ∈ console ++ rest) :
      client.user? = some identity := by
    obtain ⟨name, opens, ofConsole⟩ := kind _ member
    rw [ofConsole.identity_eq]
    exact opens
  rw [events] at runs
  rcases List.mem_append.mp runs with front | back
  · rcases List.mem_append.mp front with before | command
    · rcases List.mem_append.mp before with old | approaching
      · exact .inl old
      · rcases List.mem_append.mp approaching with greets | approaches
        · cases client.ofApproach_greeting _ greets
        · cases client.ofApproach_approach _ approaches
    · exact .inr (inside (List.mem_append_left _ command))
  · rcases List.mem_cons.mp back with ends | after
    · cases ends
    · exact .inr (inside (List.mem_append_right _ after))

/-- A connection inserts a session of the user for whom a channel opened, unless the database is closed, and no other. -/
theorem Handled.identities (handled : Handled client c d) :
    d.sessions?.map (fun s => s.1.map SessionRow.identity) =
      c.sessions?.map fun s => s.1.map SessionRow.identity ++ if s.2 then [] else client.user?.toList := by
  rw [handled.sessions, Option.map_map]
  refine congrArg (Option.map · c.sessions?) (funext fun s => ?_)
  obtain ⟨rows, closed⟩ := s
  rw [Function.comp_apply, Client.sessionsAfter]
  cases client.user? with
  | none => simp
  | some name =>
    cases closed with
    | true => simp
    | false => simp [Function.comp_def, SessionRow.identity_endFor]

/-- What is expected of a user is enforced exactly if a user is expected. For every connection, on every chat whose
shells wait for nothing but what is left of lines that they began:

- after any attempts, the next one is accepted if it has the user and the password that are expected, or if it has any
  name and no user is expected;
- so all that is accepted has what is expected exactly if a user is expected;
- after any attempts the name that is known is that of the last one that was accepted, or empty;
- a channel, if the transport hands over one, opens under the name of an attempt that was accepted, and only the shell of
  that name is touched, only its lines are run, and only a session of that name is inserted. -/
theorem credentials_enforced_iff (settled : c.Settled) (authenticated : client.Authenticated) :
    (∀ before username password,
      ((client.login.attempts before).2.2.attempt username password).accepted = true ↔
        if client.expected.user = "" then username ≠ ""
        else username = client.expected.user ∧ password = client.expected.password) ∧
    ((∀ before username password,
        ((client.login.attempts before).2.2.attempt username password).accepted = true →
          client.expected.Match username password) ↔
      client.expected.user ≠ "") ∧
    (∀ tries, (client.login.attempts tries).2.2.username =
      ((tries.filter client.login.accepts).getLast?.map Prod.fst).getD "") ∧
    (∀ name, client.user? = some name →
      name = (client.login.attempts client.attempts).2.2.username ∧
        ∃ password, (name, password) ∈ client.attempts ∧ client.login.accepts (name, password) = true) ∧
    (∀ other, client.user? ≠ some other → (handle client c).chat.shellOf other = c.shellOf other) ∧
    (∀ identity cwd command elevated,
      .shellCommand identity cwd command elevated ∈ (handle client c).chat.world.events →
        .shellCommand identity cwd command elevated ∈ c.world.events ∨ client.user? = some identity) ∧
    (handle client c).chat.sessions?.map (fun s => s.1.map SessionRow.identity) =
      c.sessions?.map fun s => s.1.map SessionRow.identity ++ if s.2 then [] else client.user?.toList := by
  have handled := handled settled authenticated
  have always (before : List (String × String)) :
      (client.login.attempts before).2.2.accepts = client.login.accepts := by
    rw [Login.attempts_login, Login.accepts_named]
  have accepted (before : List (String × String)) (username password : String) :
      ((client.login.attempts before).2.2.attempt username password).accepted =
        client.login.accepts (username, password) := by
    rw [← always before]
    rfl
  refine ⟨fun before username password => ?_, ?_, fun tries => ?_, fun name opens => ?_, handled.shells,
    fun identity cwd command elevated => handled.command, handled.identities⟩
  · rw [accepted]
    exact Login.accepts_iff
  · rw [← show client.login.expected = client.expected from rfl, ← Login.match_of_accepts_iff]
    simp only [accepted, forall_const]
  · rw [Login.attempts_login]
    rfl
  · obtain ⟨named, -, known⟩ := Client.accepted_of_user? authenticated opens
    rw [Login.attempts_login]
    exact ⟨named, known⟩

/-- A client who is let in at the second attempt. -/
def persistent : Client :=
  Client.sending
    { source := "10.0.0.1"
      port := 50022
      expected := ⟨"alice", "pw"⟩
      attempts := [("alice", "no"), ("alice", "pw")]
      channel := none }
    ⟨[], false⟩

/-- Such a client gets a session in the name that is expected, with the password that is. -/
theorem credentials_enforced_iff_persistent :
    Chat.blank.Settled ∧ persistent.Authenticated ∧
      (∀ username password, (persistent.login.attempt username password).accepted = true →
        persistent.expected.Match username password) ∧
      (persistent.login.attempts persistent.attempts).2.2.username = "alice" ∧
      (handle persistent { Chat.blank with database := some (.enabled {}) }).chat.sessions?.map
        (fun s => s.1.map SessionRow.identity) = some ["alice"] := by
  have settled : ({ Chat.blank with database := some (.enabled {}) } : Chat).Settled := Chat.settled_of_fresh rfl
  have entered : persistent.Authenticated := Client.authenticated_sending _ _
  obtain ⟨-, enforced, named, -, -, -, inserted⟩ := credentials_enforced_iff settled entered
  refine ⟨Chat.settled_of_fresh rfl, entered, enforced.mpr (by decide) [], ?_, ?_⟩
  · exact (named _).trans (by decide +kernel)
  · exact inserted.trans (by decide +kernel)

/-- A password that is expected without a user is not enforced: any password gets in. -/
theorem configured_password_ignored :
    ¬ ∀ client : Client, client.expected.user ≠ "" ∨ client.expected.password ≠ "" →
      ∀ before username password,
        ((client.login.attempts before).2.2.attempt username password).accepted = true →
          client.expected.Match username password := by
  intro enforced
  have wrong := enforced { persistent with expected := ⟨"", "pw"⟩ } (by decide) [] "mallory" "bad" (by decide)
  exact absurd wrong (by decide)

end Connection

end TreeShell
