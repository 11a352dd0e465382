import TreeShell.Json.Writer

/-! # Events and their log lines

Everything noteworthy that the shell does is an event, and each event goes to one of three logs as one
line of JSON. Most lines begin with a time stamp and the type of the event; the lines of the store
client and of the audit database carry the field `event` instead. `Event.fields` lists the fields of an
event without the time stamp, and `logLine` writes a line with it.
-/

namespace TreeShell

/-- The logs. -/
inductive LogName where
  | system
  | commands
  | sessions
deriving DecidableEq, Repr

/-- The name of a log. -/
def LogName.text : LogName → String
  | .system => "system"
  | .commands => "commands"
  | .sessions => "sessions"

/-- What the shell logs. -/
inductive Event where
  /-- A command line begins. -/
  | shellCommand (identity cwd command : String) (elevated : Bool)
  /-- A suspended command line was dropped for a new one. -/
  | promptAbandoned (identity : String)
  /-- A redirect did not write its target. -/
  | redirectRefused (identity target reason : String)
  /-- Nodes and their passwords were deleted, on the strength of the given elevation. -/
  | removed (path : String) (nodes : Nat) (elevation : Option String)
  /-- An elevation password was checked. -/
  | elevationAttempt (identity : String) (granted : Bool)
  /-- A command met a failing store. -/
  | storeFailure (identity error : String)
  /-- A request to the remote store failed. -/
  | requestFailure (method key error : String)
  /-- The audit database was opened. -/
  | databaseOpened (path : String)
  /-- The audit database refused a statement. -/
  | databaseRefused (error statement : String)
  /-- A host key was missing and has been made. -/
  | hostKeyGenerated (path : String)
  /-- The console listens. -/
  | consoleStarted (host : String) (port : Int) (mode : String)
  /-- The console stopped. -/
  | consoleStopped
  /-- A client connected. -/
  | sessionConnected (source : String) (port : Int)
  /-- A connection opened no channel. -/
  | sessionWithoutChannel (source : String)
  /-- A connection failed. -/
  | sessionFailed (source error : String)
  /-- A connection ended. -/
  | sessionEnded (source identity : String)
  /-- A client tried to log in. -/
  | loginAttempt (source username result : String)
deriving DecidableEq, Repr

namespace Event

/-- The log that an event goes to. -/
def log : Event → LogName
  | .shellCommand .. | .promptAbandoned .. | .redirectRefused .. | .removed .. | .elevationAttempt .. => .commands
  | .storeFailure .. | .requestFailure .. | .databaseOpened .. | .databaseRefused .. | .hostKeyGenerated ..
  | .consoleStarted .. | .consoleStopped => .system
  | .sessionConnected .. | .sessionWithoutChannel .. | .sessionFailed .. | .sessionEnded ..
  | .loginAttempt .. => .sessions

/-- The type of an event in its line, and whether the field is called `event_type`. -/
def type : Event → String × Bool
  | .shellCommand .. => ("shell_command", true)
  | .promptAbandoned .. => ("prompt_abandoned", true)
  | .redirectRefused .. => ("redirect_refused", true)
  | .removed .. => ("fs_remove", true)
  | .elevationAttempt .. => ("elevation_attempt", true)
  | .storeFailure .. => ("store_error", true)
  | .requestFailure .. => ("store_error", false)
  | .databaseOpened .. => ("db_init", false)
  | .databaseRefused .. => ("db_error", false)
  | .hostKeyGenerated .. => ("host_key_generated", true)
  | .consoleStarted .. => ("console_start", true)
  | .consoleStopped => ("console_stop", true)
  | .sessionConnected .. => ("session_connect", true)
  | .sessionWithoutChannel .. => ("session_no_channel", true)
  | .sessionFailed .. => ("session_error", true)
  | .sessionEnded .. => ("session_disconnect", true)
  | .loginAttempt .. => ("ssh_auth_attempt", true)

/-- The fields of an event besides its type, in order. -/
def details : Event → List (String × Value)
  | .shellCommand identity cwd command elevated =>
    [("identity", .text identity), ("cwd", .text cwd), ("command", .text command), ("elevated", .bool elevated)]
  | .promptAbandoned identity => [("identity", .text identity)]
  | .redirectRefused identity target reason =>
    [("identity", .text identity), ("target", .text target), ("reason", .text reason)]
  | .removed path nodes elevation =>
    [("path", .text path), ("nodes", .int nodes), ("elevation", (elevation.map Value.text).getD .null)]
  | .elevationAttempt identity granted =>
    [("identity", .text identity), ("result", .text (if granted then "SUCCESS" else "FAILED"))]
  | .storeFailure identity error => [("identity", .text identity), ("error", .text error)]
  | .requestFailure method key error => [("method", .text method), ("key", .text key), ("error", .text error)]
  | .databaseOpened path => [("path", .text path)]
  | .databaseRefused error statement => [("error", .text error), ("sql", .text statement)]
  | .hostKeyGenerated path => [("path", .text path)]
  | .consoleStarted host port mode => [("host", .text host), ("port", .int port), ("mode", .text mode)]
  | .consoleStopped => []
  | .sessionConnected source port => [("source_ip", .text source), ("port", .int port)]
  | .sessionWithoutChannel source => [("source_ip", .text source)]
  | .sessionFailed source error => [("source_ip", .text source), ("error", .text error)]
  | .sessionEnded source identity => [("source_ip", .text source), ("identity", .text identity)]
  | .loginAttempt source username result =>
    [("source_ip", .text source), ("username", .text username), ("result", .text result)]

/-- The fields of an event, its type first. -/
def fields (e : Event) : List (String × Value) :=
  (if e.type.2 then "event_type" else "event", .text e.type.1) :: e.details

end Event

/-- The line that a log gets for an event at a time: the time stamp and the fields in order. A field of a name that came
before takes its place. -/
def logLine (time : String) (fields : List (String × Value)) : String :=
  Json.write (.mapping (Assoc.ofPairs (("timestamp", .text time) :: fields)))

end TreeShell
