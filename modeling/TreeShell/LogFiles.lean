/-! # Log files

A log is written to a file of limited size. A line that would bring the file to its limit begins a new one: the file is set
aside under the first of some numbers, those set aside before move on by one, and the one that held the last number is
dropped. Without any such numbers the file just goes on.
-/

namespace TreeShell

/-- How much of a log is kept. -/
structure Retention where
  /-- The size that a file must not reach; zero for any size. -/
  limit : Nat := 5000000
  /-- How many files are kept beside the one that is written. -/
  backups : Nat := 5
deriving DecidableEq, Repr

/-- The files of a log: the one that is written, and those that were set aside, the newest first. -/
structure LogFiles where
  current : String := ""
  backups : List String := []
deriving DecidableEq, Repr

namespace LogFiles

/-- Whether a text would bring the file to its limit. -/
def isFullFor (f : LogFiles) (kept : Retention) (text : String) : Bool :=
  0 < kept.limit ∧ kept.limit ≤ f.current.utf8ByteSize + text.length

/-- The file is set aside for a new one. -/
def rotate (f : LogFiles) (kept : Retention) : LogFiles :=
  if kept.backups = 0 then f else { backups := (f.current :: f.backups).take kept.backups }

/-- A line is written. -/
def write (f : LogFiles) (kept : Retention) (line : String) : LogFiles :=
  let text := line ++ "\n"
  let f := if f.isFullFor kept text then f.rotate kept else f
  { f with current := f.current ++ text }

end LogFiles

end TreeShell
