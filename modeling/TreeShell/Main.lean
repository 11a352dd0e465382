import Std.Time.Format
import TreeShell.Connection.Session
import TreeShell.Launch.Listener
import TreeShell.Launch.Plan

/-! # The program

Reads the command line, and runs the console of one user over the standard streams: the user who is
expected, or `console` where any name is taken. Log lines go to the error stream. The digest of
the elevation password comes from the environment.
-/

namespace TreeShell

/-- Reads a stream to its end. -/
partial def readToEnd (stream : IO.FS.Stream) (collected : ByteArray) : IO ByteArray := do
  let chunk ← stream.read 4096
  if chunk.isEmpty then return collected else readToEnd stream (collected ++ chunk)

/-- The time of day for a log line. -/
def timestamp : IO String := do
  return (Std.Time.DateTime.ofTimestamp (← Std.Time.Timestamp.now) .UTC).format "uuuu-MM-dd'T'HH:mm:ssxxx"

/-- Runs the console that a plan describes. -/
def serveStandardStreams (plan : Launch.Plan) : IO UInt32 := do
  let input ← readToEnd (← IO.getStdin) ByteArray.empty
  let user := plan.console.expected.user
  let client : Connection.Client :=
    { source := "standard input"
      port := 0
      expected := plan.console.expected
      attempts := [(if user = "" then "console" else user, plan.console.expected.password)]
      channel := none }
  let (database, opened) := AuditDatabase.openAt plan.console.database Launch.databasePath
  let chat : Chat :=
    { gate := { digest := (← IO.getEnv "SUDO_PASSWORD_SHA256").getD "" }
      hint := plan.console.hint
      database := some database
      world := { backend := { store := Store.empty }, events := opened } }
  let ended := Connection.handle (client.sending ⟨input.toList, false⟩) chat
  let output ← IO.getStdout
  output.write (ByteArray.mk ended.sent.toArray)
  output.flush
  let time ← timestamp
  for event in ended.chat.world.events do
    IO.eprintln (logLine time event.fields)
  return 0

end TreeShell

open TreeShell

/-- Starts the program. -/
def main (arguments : List String) : IO UInt32 := do
  match Launch.Arguments.parse arguments with
  | .error .help =>
    for option in Launch.Opt.names do
      IO.println option.1
    return 0
  | .error (.usage error) =>
    IO.eprintln ("error: " ++ error.message)
    return 2
  | .ok arguments =>
    match Launch.Plan.ofArguments Launch.databasePath arguments with
    | .error error =>
      IO.eprintln error.message
      return 1
    | .ok plan =>
      match plan.console.store with
      | .memory => serveStandardStreams plan
      | .remote _ =>
        IO.eprintln "a remote store cannot be reached from the standard streams"
        return 1
