import TreeShell.Text.Blank

/-! # Command lines

A command line is a row of stages between bars, and may end in a redirect: a `>`, blanks, and a target
without blanks at the very end of the last stage. Of several such marks the rightmost counts.
-/

namespace TreeShell

/-- A command line cut into its parts, blanks at the ends of stages dropped. -/
structure CommandLine where
  stages : List String
  /-- The target of the redirect, if there is one. -/
  target : Option String
deriving DecidableEq, Repr

namespace CommandLine

/-- Whether some characters can be the target of a redirect. -/
def isTarget (cs : List Char) : Bool :=
  !cs.isEmpty && cs.all fun c => !Text.isBlank c

/-- The characters before and the target after the rightmost mark of a redirect. -/
def splitRedirect : List Char → Option (List Char × List Char)
  | [] => none
  | c :: cs =>
    match splitRedirect cs with
    | some (before, target) => some (c :: before, target)
    | none =>
      let target := cs.dropWhile Text.isBlank
      if c = '>' ∧ isTarget target then some ([], target) else none

/-- The parts of a line. -/
def parse (line : String) : CommandLine :=
  let pieces := (Text.split '|' line).map Text.trim
  match splitRedirect (pieces.getLastD "").toList with
  | some (before, target) =>
    ⟨pieces.dropLast ++ [Text.trim (String.ofList before)], some (String.ofList target)⟩
  | none => ⟨pieces, none⟩

example : parse "a b | c > d" = ⟨["a b", "c"], some "d"⟩ := by decide
example : parse "a >b>" = ⟨["a"], some "b>"⟩ := by decide

end CommandLine

end TreeShell
