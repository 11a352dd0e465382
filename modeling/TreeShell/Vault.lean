import TreeShell.Key
import TreeShell.Program

/-! # Passwords of paths

The passwords of all paths lie side by side in one mapping of the store. A path with an entry is
protected. Passwords are kept as they were entered.
-/

namespace TreeShell.Vault

/-- The password of a path. -/
def get (path : String) : Program (Option String) := do
  match ← Program.fetch (Key.password path) with
  | .text password => return some password
  | _ => return none

/-- Whether a path has a password. -/
def isProtected (path : String) : Program Bool := do
  return (← get path).isSome

/-- Gives a path a password. -/
def setPassword (path password : String) : Program Unit :=
  Program.write (Key.password path) (.text password)

/-- Whether an attempt opens a path: with elevation always, else if there is no password or the attempt
is the password. -/
def check (path : String) (attempt : Answer) (elevated : Bool) : Program Bool := do
  if elevated then return true
  match ← get path with
  | none => return true
  | some password => return attempt = some password

/-- Drops the password of a path. -/
def remove (path : String) : Program Unit :=
  Program.delete (Key.password path)

/-- The entries that drop the passwords of several paths. -/
def removals (paths : List String) : List (String × Value) :=
  Assoc.ofPairs (paths.map fun path => (Key.passwordEntry path, .null))

/-- Drops the passwords of several paths in one call; no call is made for no paths. -/
def removeMany (paths : List String) : Program Unit :=
  if paths.isEmpty then return () else Program.merge Key.passwords (removals paths)

end TreeShell.Vault
