import TreeShell.Event

/-! # Logging in

A connection lets in exactly one pair of user and password, or, when no user is expected, everybody who
gives a name. The name becomes the identity of the session. Attempts are logged without the password,
and a wrong one costs time.
-/

namespace TreeShell

/-- The user and the password that a console expects; without a user any name is taken. -/
structure Credentials where
  user : String
  password : String
deriving DecidableEq, Repr

/-- The state of a connection on its way to a shell. -/
structure Login where
  source : String
  expected : Credentials
  /-- The name of the last attempt that was accepted. -/
  username : String := ""
  shellRequested : Bool := false
deriving DecidableEq, Repr

/-- What an attempt comes to. -/
structure LoginAttempt where
  accepted : Bool
  events : List Event
  /-- The seconds that the attempt is held up. -/
  delay : Nat
  login : Login
deriving DecidableEq, Repr

namespace Login

/-- The seconds that a wrong attempt is held up. -/
def failureDelay : Nat := 1

/-- A user is let in. -/
def accept (l : Login) (username result : String) : LoginAttempt :=
  ⟨true, [.loginAttempt l.source username result], 0, { l with username := username }⟩

/-- A user tries to log in. -/
def attempt (l : Login) (username password : String) : LoginAttempt :=
  if l.expected.user = "" then
    if username = "" then ⟨false, [], 0, l⟩ else l.accept username "ACCEPT_ANY"
  else if username = l.expected.user ∧ password = l.expected.password then l.accept username "SUCCESS"
  else ⟨false, [.loginAttempt l.source username "FAILED"], failureDelay, l⟩

/-- Several attempts in turn: whether the last one was accepted, all their events, and the state
afterwards. -/
def attempts (l : Login) : List (String × String) → Bool × List Event × Login
  | [] => (false, [], l)
  | [(username, password)] =>
    let a := l.attempt username password
    (a.accepted, a.events, a.login)
  | (username, password) :: next :: rest =>
    let a := l.attempt username password
    let (accepted, events, login) := a.login.attempts (next :: rest)
    (accepted, a.events ++ events, login)

/-- Whether a channel of a kind may be opened. -/
def allowsChannel (kind : String) : Bool :=
  kind = "session"

/-- The ways to log in. -/
def allowedMethods : String := "password"

/-- A shell is asked for. -/
def requestShell (l : Login) : Login :=
  { l with shellRequested := true }

end Login

end TreeShell
