/-! # Refusals

A verb that does not do what it was asked to do says why. The wording is one line that begins with the
name of the verb.
-/

namespace TreeShell

/-- Why a verb refuses; a label is the path as the user wrote it. -/
inductive Refusal where
  | missingOperand
  | noSuchEntry (label : String)
  | noSuchFile (label : String)
  | isDirectory (label : String)
  | notDirectory (label : String)
  | nameInUse (label : String)
  | parentNotFound (label : String)
  | metadata
  | metadataTarget (label : String)
  | metadataRemoval
  | wrongPassword
  | cancelled
  | passwordsDiffer
  | copyOfRoot
  | overwriteOfRoot
  | moveOfRoot
  | removalOfRoot
  | moveIntoItself (label : String)
  | moveOfPlaceholder
  | removalOfPlaceholder
  | directoryNotEmpty
  | editOfDirectory (label : String)
  | redirectToDirectory (label : String)
deriving DecidableEq, Repr

namespace Refusal

/-- The wording of a refusal without the name of the verb. -/
def text : Refusal → String
  | .missingOperand => "missing operand"
  | .noSuchEntry label => "no such file or dir: " ++ label
  | .noSuchFile label => "no such file: " ++ label
  | .isDirectory label => "is a directory: " ++ label
  | .notDirectory label => "not a directory: " ++ label
  | .nameInUse label => "name in use: " ++ label
  | .parentNotFound label => "parent not found: " ++ label
  | .metadata => "permission denied to access metadata"
  | .metadataTarget label => "permission denied to access metadata: " ++ label
  | .metadataRemoval => "permission denied to remove password metadata"
  | .wrongPassword => "incorrect password"
  | .cancelled => "cancelled"
  | .passwordsDiffer => "passwords do not match"
  | .copyOfRoot => "cannot copy root directory"
  | .overwriteOfRoot => "cannot overwrite root directory"
  | .moveOfRoot => "cannot move root directory"
  | .removalOfRoot => "cannot remove root directory"
  | .moveIntoItself label => "cannot move '" ++ label ++ "' into itself"
  | .moveOfPlaceholder => "permission denied to move placeholder"
  | .removalOfPlaceholder => "permission denied to remove placeholder"
  | .directoryNotEmpty => "directory not empty (use -r)"
  | .editOfDirectory label => "cannot edit directory: " ++ label
  | .redirectToDirectory label => "cannot redirect to directory: " ++ label

/-- The line with which a verb refuses. -/
def message (verb : String) (r : Refusal) : String :=
  verb ++ ": " ++ r.text

end Refusal

end TreeShell
