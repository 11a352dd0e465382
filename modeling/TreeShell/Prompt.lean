/-! # Prompts and answers

A command that needs the user shows a prompt and waits. The answer is a text, or nothing when the user
cancels.
-/

namespace TreeShell

/-- How an answer is entered. -/
inductive PromptKind where
  /-- On one line. -/
  | text
  /-- On one line that is not shown. -/
  | secret
  /-- In an editor of several lines. -/
  | edit
deriving DecidableEq, Repr

/-- The name of a kind. -/
def PromptKind.name : PromptKind → String
  | .text => "text"
  | .secret => "secret"
  | .edit => "edit"

/-- What the user is shown; an editor begins with the initial text. -/
structure Prompt where
  label : String
  kind : PromptKind := .secret
  initial : String := ""
deriving DecidableEq, Repr

/-- What the user typed, or nothing if the prompt was cancelled. -/
abbrev Answer := Option String

end TreeShell
