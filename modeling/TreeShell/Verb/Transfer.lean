import TreeShell.Verb.Remove

/-! # Copying and moving

The verbs `cp` and `mv`. A copy does not take passwords along. A move into a directory keeps the name,
and removes the source together with its passwords once the value stands at its destination.
-/

namespace TreeShell.Verb

/-- Copies a file or a directory to a path. -/
def cp (source target : String) (elevation : Option Elevation) : Program Result := do
  if source = "" ∨ target = "" then return .error .missingOperand
  else
    let elevated := elevation.isSome
    let sourcePath ← locate source
    let targetPath ← locate target
    if sourcePath = "/" then return .error .copyOfRoot
    else
      let value ← Program.fetch (Key.node sourcePath)
      if value = .null then return .error (.noSuchEntry source)
      else
        match ← gate source sourcePath elevated with
        | some refusal => return .error refusal
        | none =>
          if targetPath = "/" then return .error .overwriteOfRoot
          else if Key.isMetadata targetPath && !elevated then return .error .metadata
          else
            match ← belowFile target targetPath with
            | some refusal => return .error refusal
            | none =>
              match ← gate target targetPath elevated with
              | some refusal => return .error refusal
              | none =>
                Program.write (Key.node targetPath) value
                return .ok ("Copied '" ++ source ++ "' to '" ++ target ++ "'")

/-- The path at which a moved node arrives, given the node at the target. -/
def destination (sourcePath targetPath : String) : Option Node → String
  | some (.directory _) => Path.join targetPath (Path.name sourcePath)
  | _ => targetPath

/-- Moves a file or a directory to a path, or into the directory there. -/
def mv (source target : String) (elevation : Option Elevation) : Program Result := do
  if source = "" ∨ target = "" then return .error .missingOperand
  else
    let elevated := elevation.isSome
    let sourcePath ← locate source
    let targetPath ← locate target
    if sourcePath = "/" then return .error .moveOfRoot
    else
      let value ← Program.fetch (Key.node sourcePath)
      match Node.ofValue? value with
      | none => return .error (.noSuchEntry source)
      | some node =>
        if Path.name sourcePath = placeholderName ∧ elevated = false then return .error .moveOfPlaceholder
        else
          match ← gate source sourcePath elevated with
          | some refusal => return .error refusal
          | none =>
            let finalPath := destination sourcePath targetPath (← load targetPath)
            if Path.isWithin finalPath sourcePath then return .error (.moveIntoItself source)
            else if Key.isMetadata finalPath && !elevated then return .error .metadata
            else
              match ← belowFile target finalPath with
              | some refusal => return .error refusal
              | none =>
                Program.write (Key.node finalPath) value
                -- the gate above authorized the whole move
                removeNode sourcePath node node.isDirectory (some .earlierStep)
                return .ok ("Moved '" ++ source ++ "' to '" ++ Path.name finalPath ++ "'")

end TreeShell.Verb
