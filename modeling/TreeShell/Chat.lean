import TreeShell.AuditDatabase
import TreeShell.BanList
import TreeShell.Shell

/-! # The chat

The chat gives every identity a shell of its own on one common store. A message passes the ban list
first; a message without a command, and one that asks for elevation with a wrong password, is answered
without running anything. What runs is recorded in the audit database, and the replies carry a hint.
-/

namespace TreeShell

/-- The word with which a message can call the shell. -/
def messageMark : String := "/shell"

/-- The hint that the chat shows. -/
def chatHint : String := "Use /shell help to display help"

/-- Whether a stage of a line begins with the elevation keyword. -/
def wantsElevation (line : String) : Bool :=
  (Text.split '|' line).any fun stage => (Text.words stage).head? = some elevationKeyword

/-- The command in a message: the mark at its start, in either case, and the blanks around are dropped. -/
def commandOf (message : String) : String :=
  let text := Text.trim message
  let lowered := String.ofList (text.toList.map Char.toLower)
  if Text.startsWith lowered messageMark then
    Text.trim (String.ofList (text.toList.drop messageMark.length))
  else text

/-- All identities' shells with what they share. -/
structure Chat where
  gate : Gate
  /-- What stands above every framed reply; empty for nothing. -/
  hint : String
  database : Option AuditDatabase
  shells : Assoc Shell := []
  world : World

namespace Chat

/-- The shell of an identity, a fresh one at first. -/
def shellOf (c : Chat) (identity : String) : Shell :=
  (Assoc.get? c.shells identity).getD { identity := identity }

/-- The chat after a shell moved on. -/
def withShell (c : Chat) (shell : Shell) (world : World) : Chat :=
  { c with shells := Assoc.insert shell.identity shell c.shells, world := world }

/-- The chat after one more event. -/
def record (c : Chat) (e : Event) : Chat :=
  { c with world := c.world.record e }

/-- Changes the audit database, if there is one, and logs what it reports. -/
def audit (c : Chat) (change : AuditDatabase → AuditDatabase × List Event) : Chat :=
  match c.database with
  | none => c
  | some db =>
    let (db, events) := change db
    { c with database := some db, world := events.foldl World.record c.world }

/-- A response with the hint above a reply; prompts stay as they are. -/
def frame (c : Chat) : Response → Response
  | .reply text => .reply (if c.hint = "" then text else c.hint ++ "\n\n" ++ text)
  | .awaiting prompt => .awaiting prompt

/-- What the shell of an identity makes of a request. -/
def delegate (c : Chat) (identity : String) (request : Shell → World → ShellResult) :
    Except ShellError Response × Chat :=
  let r := request (c.shellOf identity) c.world
  (r.response.map c.frame, c.withShell r.shell r.world)

/-- Records a command and runs it. -/
def launch (c : Chat) (identity command : String) (granted : Option Elevation) :
    Except ShellError Response × Chat :=
  (c.audit fun db => db.insertCommand (some identity) (some command) granted.isSome).delegate identity
    fun s w => s.exec w command granted

/-- Checks the elevation password if a command asks for elevation, and runs the command unless the
password is wrong. -/
def challenge (c : Chat) (identity command : String) (password : Answer) : Except ShellError Response × Chat :=
  if wantsElevation command then
    match c.gate.verify identity password with
    | .error error => (.error (.gate error), c)
    | .ok (granted, event) =>
      let c := (c.record event).audit fun db => db.insertElevation (some identity) granted.isSome
      match granted with
      | none => (.ok (.reply "Incorrect Sudo Password\nNo command executed"), c)
      | some elevation => c.launch identity command (some elevation)
  else c.launch identity command none

/-- Handles a message of an identity, with the elevation password if one was given. -/
def handle (c : Chat) (identity message : String) (password : Answer) : Except ShellError Response × Chat :=
  if identity = "" then (.error .notSignedIn, c)
  else
    let command := commandOf message
    match (BanList.isBanned identity).runOn c.world with
    | (.error error, world) => (.error (.store error), { c with world := world })
    | (.ok banned, world) =>
      let c := { c with world := world }
      if banned then (.ok (c.frame (.reply "You have been banned.")), c)
      else if command = "" then (.ok (c.frame (.reply "No command detected")), c)
      else c.challenge identity command password

/-- Answers the prompt at which the line of an identity waits. -/
def respond (c : Chat) (identity : String) (answer : Answer) : Except ShellError Response × Chat :=
  if identity = "" then (.error .notSignedIn, c)
  else c.delegate identity fun s w => s.resume w answer

end Chat

end TreeShell
