import TreeShell.Verb.Guard

/-! # Making directories

The verb `mkdir`. A new directory gets a placeholder, since the store forgets an empty one.
-/

namespace TreeShell.Verb

/-- The stored value of a directory that holds only the placeholder. -/
def newDirectory : Value :=
  .mapping [(CodeTable.segment.escape placeholderName, .text placeholderContent)]

/-- Makes a directory, with a password after `-s`; with elevation no password is set. -/
def mkdir (args : List String) (elevation : Option Elevation) : Program Result := do
  let operand := Operand.ofArgs args
  let label := operand.label
  let protects := operand.protects && elevation.isNone
  if label = "" then return .error .missingOperand
  else
    let path ← locate label
    if path = "/" then return .error (.nameInUse label)
    else if Key.isMetadata path && elevation.isNone then return .error .metadata
    else
      match ← load (Path.parent path) with
      | some (.directory siblings) =>
        if (Assoc.get? siblings (Path.name path)).isSome then return .error (.nameInUse label)
        else
          match ← (if protects then newPassword label path else pure none) with
          | some refusal => return .error refusal
          | none =>
            Program.merge (Key.node (Path.parent path))
              [(CodeTable.segment.escape (Path.name path), newDirectory)]
            return .ok ("Directory '" ++ label ++ "' created" ++
              (if protects then " (password-protected)" else ""))
      | _ => return .error (.parentNotFound label)

end TreeShell.Verb
