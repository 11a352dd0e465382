import TreeShell.Verb.Guard

/-! # Writing files

The verb `vim`, which stores what the user makes of a file in the editor, and the redirect of the output
of a command line into a file. Both create the file if there is none.
-/

namespace TreeShell.Verb

/-- The text of what a look-up found; empty unless it is a file. -/
def contentOf : Option Node → String
  | some (.file content) => content
  | _ => ""

/-- Edits a file, after `-s` with a new password; a file that did not exist stays behind empty when the
editor is cancelled. -/
def vim (args : List String) (elevation : Option Elevation) : Program Result := do
  let operand := Operand.ofArgs args
  let label := operand.label
  if label = "" then return .error .missingOperand
  else
    let path ← locate label
    match ← load path with
    | some (.directory _) => return .error (.editOfDirectory label)
    | node =>
      match ← (if node.isNone then belowFile label path else pure none) with
      | some refusal => return .error refusal
      | none =>
        match ← gate label path elevation.isSome with
        | some refusal => return .error refusal
        | none =>
          match ← (if operand.protects && elevation.isNone then newPassword label path else pure none) with
          | some refusal => return .error refusal
          | none =>
            let existing := contentOf node
            Program.write (Key.node path) (.text existing)
            match ← Program.prompt ⟨"Editing '" ++ label ++ "'", .edit, existing⟩ with
            | none => return .ok "vim: editing canceled"
            | some edited =>
              Program.write (Key.node path) (.text edited)
              return .ok ("File '" ++ label ++ "' saved.")

/-- Writes the output of a command line to a file; there is nothing to reply. -/
def redirect (label text : String) (elevation : Option Elevation) : Program Result := do
  let path ← locate label
  if Key.isMetadata path && elevation.isNone then return .error (.metadataTarget label)
  else
    match ← load path with
    | some (.directory _) => return .error (.redirectToDirectory label)
    | node =>
      match ← (if node.isNone then belowFile label path else pure none) with
      | some refusal => return .error refusal
      | none =>
        match ← gate label path elevation.isSome with
        | some refusal => return .error refusal
        | none =>
          Program.write (Key.node path) (.text text)
          return .ok ""

end TreeShell.Verb
