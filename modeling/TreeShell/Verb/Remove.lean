import TreeShell.Verb.Guard

/-! # Removing nodes

The verb `rm`. Along with a node goes its password, and along with a directory the passwords of all
nodes below it.
-/

namespace TreeShell.Verb

/-- The paths whose passwords go when a node is removed. -/
def removedPaths (path : String) (node : Node) (recursive : Bool) : List String :=
  path :: (if recursive then (node.walk path).map (·.1) else [])

/-- Removes a node with its passwords, on the strength of an elevation if there is one. -/
def removeNode (path : String) (node : Node) (recursive : Bool) (reason : Option ElevationReason) :
    Program Unit := do
  let removed := removedPaths path node recursive
  Program.delete (Key.node path)
  Vault.removeMany removed
  Program.record (.removed path removed.length (reason.map (·.text)))

/-- Removes a file, or after `-r` a directory with all below it. -/
def rm (args : List String) (elevation : Option Elevation) : Program Result := do
  let recursive := args.contains "-r"
  let label := (args.find? (· ≠ "-r")).getD ""
  if label = "" then return .error .missingOperand
  else
    let path ← locate label
    if path = "/" then return .error .removalOfRoot
    else if Key.isMetadata path then return .error .metadataRemoval
    else
      match ← load path with
      | none => return .error (.noSuchEntry label)
      | some node =>
        if Path.name path = placeholderName ∧ elevation.isNone then return .error .removalOfPlaceholder
        else
          match ← gate label path elevation.isSome with
          | some refusal => return .error refusal
          | none =>
            if node.isDirectory && !recursive && !node.names.isEmpty then return .error .directoryNotEmpty
            else
              removeNode path node recursive (elevation.map (·.reason))
              return .ok ((if node.isDirectory then "Removed directory '" else "Removed file '") ++ label ++ "'")

end TreeShell.Verb
