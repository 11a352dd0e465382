import TreeShell.Escape
import TreeShell.Path

/-! # Store keys

A key is a slash-joined list of components. Nodes of the tree, passwords, bans and working directories
each have a key of their own under a fixed first component, and every component that comes from a path
or an identity is escaped, so that different paths and identities have different keys.
-/

namespace TreeShell.Key

/-- The component under which the file tree lives. -/
def treeRoot : String := "shellFS"

/-- The directory of the file tree that holds the passwords. -/
def passwordDirectory : String := "__PASSWORDS__"

/-- The password component of the root; escaping never produces it. -/
def rootPassword : String := "\\root"

/-- The component under which the banned identities live. -/
def banRoot : String := "ban"

/-- The component under which the working directories live. -/
def cwdRoot : String := "cwd"

/-- The path of the directory that holds the passwords. -/
def metadataPath : String := "/" ++ passwordDirectory

/-- The key of the mapping of all passwords. -/
def passwords : String := treeRoot ++ "/" ++ passwordDirectory

/-- The non-empty components of a key. -/
def components (key : String) : List String :=
  (Text.split '/' key).filter (· ≠ "")

/-- The key of the node at a path. -/
def node (path : String) : String :=
  "/".intercalate (treeRoot :: (Path.segments path).map CodeTable.segment.escape)

/-- The component of a path in the mapping of all passwords: the whole path in one component. -/
def passwordEntry (path : String) : String :=
  if path = "/" then rootPassword
  else CodeTable.segment.escape (String.ofList (path.toList.drop 1))

/-- The key of the password of a path. -/
def password (path : String) : String :=
  passwords ++ "/" ++ passwordEntry path

/-- The key of an identity's ban; the empty identity stands for the list of all bans. -/
def ban (identity : String) : String :=
  if identity = "" then banRoot else banRoot ++ "/" ++ CodeTable.identity.escape identity

/-- The key of an identity's working directory. -/
def cwd (identity : String) : String :=
  cwdRoot ++ "/" ++ CodeTable.identity.escape identity

/-- Whether a path is the password directory or lies below it. -/
def isMetadata (path : String) : Bool :=
  Path.isWithin path metadataPath

end TreeShell.Key
