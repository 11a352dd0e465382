import TreeShell.Context
import TreeShell.Text.Order
import TreeShell.Verb.Guard

/-! # Looking around

The verbs `ls`, `file`, `cd` and `cat`. They look a path up, ask for its password, and leave the tree as
it is.
-/

namespace TreeShell.Verb

/-- A name with the sign of its kind. -/
def nameLine (isDirectory : Bool) (name : String) : String :=
  (if isDirectory then "📁 " else "📄 ") ++ name

/-- The names that `ls` shows of a directory; without elevation the root hides the passwords. -/
def visibleNames (path : String) (children : Entries) (elevated : Bool) : List String :=
  let names := Text.sort (Assoc.names children)
  if path = "/" ∧ elevated = false then names.filter fun n => !Key.isMetadata (Path.join "/" n)
  else names

/-- The lines that `ls` shows of a directory. -/
def directoryListing (path : String) (children : Entries) (elevated : Bool) : String :=
  match visibleNames path children elevated with
  | [] => "(empty directory)"
  | names =>
    "\n".intercalate (names.map fun n => nameLine (((Assoc.get? children n).map Value.isMapping).getD false) n)

/-- Lists a directory, or names a file. -/
def ls (label : String) (elevation : Option Elevation) : Program Result := do
  let path ← locate label
  match ← load path with
  | none => return .error (.noSuchEntry label)
  | some node =>
    match ← gate (if label = "" then path else label) path elevation.isSome with
    | some refusal => return .error refusal
    | none =>
      match node with
      | .file _ => return .ok (nameLine false (if label = "" then Path.name path else label))
      | .directory children => return .ok (directoryListing path children elevation.isSome)

/-- Says whether a path is a file or a directory. -/
def file (label : String) (elevation : Option Elevation) : Program Result := do
  if label = "" then return .error .missingOperand
  else
    let path ← locate label
    match ← load path with
    | none => return .error (.noSuchEntry label)
    | some node =>
      match ← gate label path elevation.isSome with
      | some refusal => return .error refusal
      | none =>
        match node with
        | .file _ => return .ok (nameLine false ("'" ++ label ++ "' is a file"))
        | .directory _ => return .ok (nameLine true ("'" ++ label ++ "' is a directory"))

/-- Makes a directory the working directory of an identity. -/
def cd (identity label : String) (elevation : Option Elevation) : Program Result := do
  if label = "" then return .error .missingOperand
  else
    let path ← locate label
    match ← load path with
    | none => return .error (.noSuchEntry label)
    | some (.file _) => return .error (.notDirectory label)
    | some (.directory _) =>
      match ← gate label path elevation.isSome with
      | some refusal => return .error refusal
      | none =>
        Context.changeDirectory identity path
        return .ok ("Changed directory to '" ++ label ++ "'")

/-- Shows the content of a file. -/
def cat (label : String) (elevation : Option Elevation) : Program Result := do
  if label = "" then return .error .missingOperand
  else
    let path ← locate label
    match ← load path with
    | none => return .error (.noSuchFile label)
    | some node =>
      match ← gate label path elevation.isSome with
      | some refusal => return .error refusal
      | none =>
        match node with
        | .directory _ => return .error (.isDirectory label)
        | .file content => return .ok content

end TreeShell.Verb
