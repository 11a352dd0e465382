import TreeShell.AuditDatabase
import TreeShell.Chat
import TreeShell.Connection.Login
import TreeShell.Launch.Arguments
import TreeShell.Store.Remote

/-! # What is started

The arguments select a store, an audit database, the console, and perhaps the dashboard beside it. The
store is set up first: where that fails, nothing else happens.
-/

namespace TreeShell.Launch

/-- The console to start. -/
structure ConsolePlan where
  host : String
  port : Int
  expected : Credentials
  database : Bool
  store : StoreKind
  hint : String
deriving DecidableEq, Repr

/-- The dashboard to start. -/
structure DashboardPlan where
  host : String
  port : Int
  database : Bool
  hint : String
deriving DecidableEq, Repr

/-- All that is started, and what is logged on the way. -/
structure Plan where
  console : ConsolePlan
  dashboard : Option DashboardPlan
  events : List Event
deriving DecidableEq, Repr

/-- The address at which the dashboard is served. -/
def dashboardHost : String := "0.0.0.0"

/-- The plan that arguments ask for, with the audit database at a path. -/
def Plan.ofArguments (databasePath : String) (a : Arguments) : Except StoreSetupError Plan :=
  (StoreKind.select a.backend a.remoteUrl).map fun store =>
    let database := !a.noDatabase
    { console :=
        { host := a.host
          port := a.port
          expected := if a.openAccess then ⟨"", ""⟩ else ⟨a.user, a.password⟩
          database := database
          store := store
          hint := "" }
      dashboard :=
        if a.dashboard then some ⟨dashboardHost, a.dashboardPort, database, chatHint⟩ else none
      events := if database then (AuditDatabase.openAt true databasePath).2 else [] }

end TreeShell.Launch
