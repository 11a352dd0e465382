import TreeShell.Elevation
import TreeShell.Node
import TreeShell.Vault
import TreeShell.Verb.Refusal

/-! # Checks that verbs share

Before a verb reads or writes a path it looks up the node there, asks for the password of the path, and
makes sure that no ancestor is a file that the write would destroy.
-/

namespace TreeShell.Verb

/-- What a verb comes to: a reply or a refusal. -/
abbrev Result := Except Refusal String

/-- The name of the placeholder that keeps a new directory in existence. -/
def placeholderName : String := "DONOTDELETE"

/-- The content of the placeholder. -/
def placeholderContent : String := "NODELETE"

/-- The node at a path; the root is always a directory. -/
def load (path : String) : Program (Option Node) := do
  let node := Node.ofValue? (← Program.fetch (Key.node path))
  match node with
  | some (.directory children) => return some (.directory children)
  | node => return if path = "/" then some (.directory []) else node

/-- The path that an operand names from the working directory. -/
def locate (label : String) : Program String := do
  return Path.resolve label (← Program.workingDirectory)

/-- Whether the nearest of the given paths that holds a node holds a file. -/
def nearestIsFile : List String → Program Bool
  | [] => return false
  | path :: rest => do
    match ← load path with
    | some (.file _) => return true
    | some (.directory _) => return false
    | none => nearestIsFile rest

/-- Refuses a path below a file, since writing there would turn the file into a directory. -/
def belowFile (label path : String) : Program (Option Refusal) := do
  if ← nearestIsFile (Path.ancestors path) then return some (.notDirectory label)
  else return none

/-- Refuses metadata, and a protected path whose password is not given; elevation passes. -/
def gate (label path : String) (elevated : Bool) : Program (Option Refusal) := do
  if elevated then return none
  else if Key.isMetadata path then return some .metadata
  else if ← Vault.isProtected path then
    let attempt ← Program.prompt { label := "Password for '" ++ label ++ "':" }
    if ← Vault.check path attempt false then return none
    else return some .wrongPassword
  else return none

/-- Gives a path a password that is entered twice. -/
def newPassword (label path : String) : Program (Option Refusal) := do
  match ← Program.prompt { label := "Set password for '" ++ label ++ "':" } with
  | none => return some .cancelled
  | some first =>
    if first = "" then return some .cancelled
    else
      let second ← Program.prompt { label := "Confirm password:" }
      if second = some first then
        Vault.setPassword path first
        return none
      else return some .passwordsDiffer

/-- The operand of a verb that can protect what it makes. -/
structure Operand where
  /-- Whether `-s` came first. -/
  protects : Bool
  /-- The operand, empty if there is none. -/
  label : String
deriving DecidableEq, Repr

/-- The operand among the arguments. -/
def Operand.ofArgs : List String → Operand
  | "-s" :: rest => ⟨true, rest.headD ""⟩
  | args => ⟨false, args.headD ""⟩

end TreeShell.Verb
