import TreeShell.BanList

/-! # Moderation

The commands on the ban list. Whoever runs them has checked the elevation before.
-/

namespace TreeShell.Moderation

/-- Bans an identity. -/
def ban (identity : String) : Program String := do
  if identity = "" then return "ban: missing operand"
  else
    BanList.ban identity
    return "Banned '" ++ identity ++ "'"

/-- Lifts the ban of an identity. -/
def unban (identity : String) : Program String := do
  if identity = "" then return "unban: missing operand"
  else
    BanList.unban identity
    return "Unbanned '" ++ identity ++ "'"

/-- Shows the banned identities, one a line. -/
def listBanned : Program String := do
  match ← BanList.list with
  | [] => return "(no banned users)"
  | banned => return "\n".intercalate banned

end TreeShell.Moderation
