import TreeShell.Connection.Login

/-! # Listening for clients

The console binds its port, tells what it does, and hands every client to a session of its own until it
is stopped. A failure to accept a client is reported and does not end it; a port that may not be bound
does.
-/

namespace TreeShell.Launch

/-- The directory of the logs. -/
def logDirectory : String := "logs"

/-- The file of the audit database. -/
def databasePath : String := "chatshell.db"

/-- What comes of waiting for a client. -/
inductive Arrival where
  | client (host : String) (port : Int)
  | failure (error : String)
deriving DecidableEq, Repr

/-- A call on the listening socket. -/
inductive SocketCall where
  | bind (host : String) (port : Int)
  | listen (backlog : Nat)
  | close
deriving DecidableEq, Repr

/-- A session that was started for a client; it does not outlive the program. -/
structure Spawned where
  host : String
  port : Int
  expected : Credentials
deriving DecidableEq, Repr

/-- A listener that came to its end. -/
structure Listened where
  printed : String
  calls : List SocketCall
  spawned : List Spawned
  events : List Event
  /-- The exit status, if the program ends with the listener. -/
  exitStatus : Option Nat
deriving DecidableEq, Repr

/-- Whether the console checks credentials. -/
def modeText (expected : Credentials) : String :=
  if expected.user = "" then "open (any identity)" else "credential-enforced"

/-- What is printed once the console listens. -/
def banner (host : String) (port : Int) (expected : Credentials) (database : Bool) : String :=
  "[*] Shell console listening on " ++ host ++ ":" ++ toString port ++ "  [" ++ modeText expected ++ "]\n" ++
    "[*] Logs → " ++ logDirectory ++ "/\n" ++
    (if database then "[*] Database → " ++ databasePath ++ "\n" else "") ++
    "[*] Press Ctrl+C to stop.\n\n"

/-- What is printed for an arrival. -/
def arrivalText : Arrival → String
  | .client _ _ => ""
  | .failure error => "[!] Accept error: " ++ error ++ "\n"

/-- The session of an arrival. -/
def sessionOf? (expected : Credentials) : Arrival → Option Spawned
  | .client host port => some ⟨host, port, expected⟩
  | .failure _ => none

/-- Listens until it is stopped after the given arrivals; `allowed` says whether the port may be bound. -/
def listen (host : String) (port : Int) (expected : Credentials) (database allowed : Bool)
    (arrivals : List Arrival) : Listened :=
  if allowed then
    { printed :=
        banner host port expected database ++ "".intercalate (arrivals.map arrivalText) ++
          "\n[*] Shutting down console.\n"
      calls := [.bind host port, .listen 100, .close]
      spawned := arrivals.filterMap (sessionOf? expected)
      events := [.consoleStarted host port (modeText expected), .consoleStopped]
      exitStatus := none }
  else
    { printed := "[!] Cannot bind to port " ++ toString port ++ ". Try: sudo python main.py\n"
      calls := [.bind host port]
      spawned := []
      events := []
      exitStatus := some 1 }

end TreeShell.Launch
