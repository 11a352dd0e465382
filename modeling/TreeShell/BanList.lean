import TreeShell.Key
import TreeShell.Program
import TreeShell.Text.Order

/-! # Banned identities

The ban list is a mapping of escaped identities to true.
-/

namespace TreeShell.BanList

/-- Bans an identity. -/
def ban (identity : String) : Program Unit :=
  Program.merge (Key.ban "") [(CodeTable.identity.escape identity, .bool true)]

/-- Lifts the ban of an identity. -/
def unban (identity : String) : Program Unit :=
  Program.delete (Key.ban identity)

/-- The banned identities in ascending order. -/
def list : Program (List String) := do
  match ← Program.fetch (Key.ban "") with
  | .mapping entries => return Text.sort ((Assoc.names entries).map CodeTable.identity.unescape)
  | _ => return []

/-- Whether an identity is banned. -/
def isBanned (identity : String) : Program Bool := do
  match ← Program.fetch (Key.ban identity) with
  | .null => return false
  | _ => return true

end TreeShell.BanList
