import TreeShell.Connection.Login
import TreeShell.Console.Session

/-! # Connections

A connection sets up its transport and logs its user in. If the transport then hands over a channel in time, the connection
runs a console over it for the user who was let in last. Whatever happens, it gives back the transport and the socket at
last, and the end of the session is logged; a session that began in the audit database also ends there.
-/

namespace TreeShell

/-- A connection in the course of its life. -/
structure Connection where
  chat : Chat
  /-- Whether the socket of the client is open. -/
  socketOpen : Bool := true
  /-- Whether the transport is open, once there is one. -/
  transportOpen : Option Bool := none
  /-- The user for whom a channel opened; empty before. -/
  identity : String := ""
  sent : List UInt8 := []
  /-- The error that broke the console off. -/
  failure : Option ShellError := none

namespace Connection

/-- The file of the host key. -/
def hostKeyPath : String := "server.key"

/-- A client as it shows itself over a connection. -/
structure Client where
  source : String
  port : Int
  expected : Credentials
  /-- Whether the host key exists; otherwise it is made. -/
  hostKeyPresent : Bool := true
  /-- The failure of setting up the transport. -/
  transportError : Option String := none
  /-- The failure of the handshake. -/
  handshakeError : Option String := none
  /-- The attempts to log in. -/
  attempts : List (String × String)
  /-- What comes over the channel that the transport hands over after these attempts; none if it hands over none in time,
  which it may do whoever was let in. -/
  channel : Option Console.Input
deriving DecidableEq, Repr

/-- A connection before anybody has tried to log in. -/
def Client.login (client : Client) : Login :=
  { source := client.source, expected := client.expected }

/-- The client if it opens a channel exactly when its last attempt is accepted, and sends an input over it. -/
def Client.sending (client : Client) (input : Console.Input) : Client :=
  { client with channel := if (client.login.attempts client.attempts).1 then some input else none }

/-- Records several events. -/
def recordAll (c : Chat) (events : List Event) : Chat :=
  { c with world := events.foldl World.record c.world }

/-- The audit database learns of the beginning of a session. -/
def begin (source identity : String) (c : Chat) : Chat :=
  c.audit fun db => db.insertSession (some identity) (some source)

/-- Logs the end of a connection; the audit database learns of it if the user was known. -/
def finish (source identity : String) (c : Chat) : Chat :=
  let c := c.record (.sessionEnded source identity)
  if identity = "" then c else c.audit fun db => db.closeSession (some identity)

/-- The connection logs some events. -/
def note (k : Connection) (events : List Event) : Connection :=
  { k with chat := recordAll k.chat events }

/-- The connection gets its transport. -/
def openTransport (k : Connection) : Connection :=
  { k with transportOpen := some true }

/-- The connection runs a console of a user for whom a channel opened. -/
def attend (source name : String) (input : Console.Input) (k : Connection) : Connection :=
  let r := Console.run name (begin source name k.chat) input
  { k with chat := r.chat, identity := name, sent := r.sent, failure := r.failure }

/-- The connection gives back what it holds: the transport, if there is one, and then the socket. -/
def release (k : Connection) : Connection :=
  let k := { k with transportOpen := k.transportOpen.map fun _ => false }
  { k with socketOpen := false }

/-- The end of a connection, however it came about. -/
def conclude (source : String) (k : Connection) : Connection :=
  let k := k.release
  { k with chat := finish source k.identity k.chat }

/-- What a connection does with its transport. -/
def serve (client : Client) (k : Connection) : Connection :=
  match client.handshakeError with
  | some error => k.note [.sessionFailed client.source error]
  | none =>
    let (_, events, login) := client.login.attempts client.attempts
    let k := k.note events
    match client.channel with
    | none => k.note [.sessionWithoutChannel client.source]
    | some input => k.attend client.source login.username input

/-- What a connection does before its end. -/
def proceed (client : Client) (k : Connection) : Connection :=
  let k := k.note [.sessionConnected client.source client.port]
  let k := if client.hostKeyPresent then k else k.note [.hostKeyGenerated hostKeyPath]
  match client.transportError with
  | some error => k.note [.sessionFailed client.source error]
  | none => serve client k.openTransport

/-- Handles a connection from its beginning to its end. -/
def handle (client : Client) (c : Chat) : Connection :=
  conclude client.source (proceed client { chat := c })

end Connection

end TreeShell
