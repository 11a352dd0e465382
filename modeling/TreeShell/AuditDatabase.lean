import TreeShell.Event
import TreeShell.Text.Order

/-! # The audit database

Three tables record the console sessions, the accepted command lines and the checks of the elevation
password, each row with the number of rows before it as its place. An insert without an identity, or
after the database was closed, changes nothing and is logged; a query of a closed database fails. The
reports list commands newest first, distinct commands by how often they ran, and checks newest first. A
negative limit means no limit.
-/

namespace TreeShell

/-- A console session; it is closed when its end was recorded. -/
structure SessionRow where
  identity : String
  source : Option String
  closed : Bool
deriving DecidableEq, Repr

/-- An accepted command line. -/
structure CommandRow where
  identity : String
  command : Option String
  elevated : Bool
deriving DecidableEq, Repr

/-- A check of the elevation password. -/
structure ElevationRow where
  id : Nat
  identity : String
  success : Bool
deriving DecidableEq, Repr

/-- A distinct command line with the number of times it was accepted. -/
structure CommandCount where
  command : Option String
  count : Nat
deriving DecidableEq, Repr

/-- The tables, oldest row first. -/
structure AuditTables where
  sessions : List SessionRow := []
  commands : List CommandRow := []
  elevations : List ElevationRow := []
  closed : Bool := false
deriving DecidableEq, Repr

/-- An audit database; one that is disabled keeps nothing. -/
inductive AuditDatabase where
  | disabled
  | enabled (tables : AuditTables)
deriving DecidableEq, Repr

/-- Why the database does not do what it was asked to do. -/
inductive AuditError where
  | closed
  | missingIdentity (table : String)
deriving DecidableEq, Repr

/-- The wording of an error. -/
def AuditError.message : AuditError → String
  | .closed => "Cannot operate on a closed database."
  | .missingIdentity table => "NOT NULL constraint failed: " ++ table ++ ".identity"

namespace AuditDatabase

/-- Opens a database at a path; the opening of an enabled one is logged. -/
def openAt (enabled : Bool) (path : String) : AuditDatabase × List Event :=
  if enabled then (.enabled {}, [.databaseOpened path]) else (.disabled, [])

/-- Carries out a change of the tables, or logs why it is refused. -/
def change (db : AuditDatabase) (statement : String)
    (apply : AuditTables → Except AuditError AuditTables) : AuditDatabase × List Event :=
  match db with
  | .disabled => (.disabled, [])
  | .enabled tables =>
    let refused (error : AuditError) := (enabled tables, [Event.databaseRefused error.message statement])
    if tables.closed then refused .closed
    else
      match apply tables with
      | .ok tables => (.enabled tables, [])
      | .error error => refused error

/-- The identity of a row, which must not be missing. -/
def required (table : String) (identity : Option String) : Except AuditError String :=
  match identity with
  | some identity => .ok identity
  | none => .error (.missingIdentity table)

/-- Records the beginning of a session. -/
def insertSession (db : AuditDatabase) (identity source : Option String) : AuditDatabase × List Event :=
  db.change "INSERT INTO sessions (identity, source) VALUES (?, ?)" fun t => do
    let identity ← required "sessions" identity
    return { t with sessions := t.sessions ++ [⟨identity, source, false⟩] }

/-- Records the end of every open session of an identity. -/
def closeSession (db : AuditDatabase) (identity : Option String) : AuditDatabase × List Event :=
  db.change
    ("UPDATE sessions SET disconnected_at = datetime('now') " ++
      "WHERE identity = ? AND disconnected_at IS NULL")
    fun t => .ok { t with
      sessions := t.sessions.map fun r => if some r.identity = identity then { r with closed := true } else r }

/-- Records an accepted command line. -/
def insertCommand (db : AuditDatabase) (identity command : Option String) (elevated : Bool) :
    AuditDatabase × List Event :=
  db.change "INSERT INTO commands (identity, command, elevated) VALUES (?, ?, ?)" fun t => do
    let identity ← required "commands" identity
    return { t with commands := t.commands ++ [⟨identity, command, elevated⟩] }

/-- Records a check of the elevation password. -/
def insertElevation (db : AuditDatabase) (identity : Option String) (success : Bool) :
    AuditDatabase × List Event :=
  db.change "INSERT INTO elevations (identity, success) VALUES (?, ?)" fun t => do
    let identity ← required "elevations" identity
    return { t with elevations := t.elevations ++ [⟨t.elevations.length + 1, identity, success⟩] }

/-- Closes the database. -/
def close : AuditDatabase → AuditDatabase
  | .disabled => .disabled
  | .enabled tables => .enabled { tables with closed := true }

/-- The first rows up to a limit; a negative limit means all. -/
def cut {α : Type} (limit : Int) (rows : List α) : List α :=
  if limit < 0 then rows else rows.take limit.toNat

/-- A report over the tables; a disabled database reports nothing. -/
def query {α : Type} (db : AuditDatabase) (rows : AuditTables → List α) : Except AuditError (List α) :=
  match db with
  | .disabled => .ok []
  | .enabled tables => if tables.closed then .error .closed else .ok (rows tables)

/-- The accepted command lines, newest first. -/
def recentCommands (db : AuditDatabase) (limit : Int) : Except AuditError (List CommandRow) :=
  db.query fun t => cut limit t.commands.reverse

/-- The distinct entries of a list with their numbers of occurrences, in order of first occurrence. -/
def tally (commands : List (Option String)) : List CommandCount :=
  commands.eraseDups.map fun c => ⟨c, commands.count c⟩

/-- Whether a count comes before another in a report: the higher one first, and among equals the missing
command and then the lesser text. -/
def CommandCount.before (a b : CommandCount) : Bool :=
  if a.count = b.count then
    match a.command, b.command with
    | none, _ => true
    | some _, none => false
    | some x, some y => Text.notAfter x y
  else a.count > b.count

/-- The distinct command lines with how often each was accepted, most frequent first. -/
def topCommands (db : AuditDatabase) (limit : Int) : Except AuditError (List CommandCount) :=
  db.query fun t => cut limit ((tally (t.commands.map (·.command))).mergeSort CommandCount.before)

/-- The checks of an identity, or of all when it is missing or empty, newest first. -/
def elevationsOf (db : AuditDatabase) (identity : Option String) (limit : Int) :
    Except AuditError (List ElevationRow) :=
  db.query fun t =>
    let rows :=
      match identity with
      | none => t.elevations
      | some identity => if identity = "" then t.elevations else t.elevations.filter (·.identity = identity)
    cut limit rows.reverse

/-- The sessions in the order in which they began. -/
def sessions : AuditDatabase → List SessionRow
  | .disabled => []
  | .enabled tables => tables.sessions

end AuditDatabase

end TreeShell
