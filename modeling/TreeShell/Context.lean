import TreeShell.Key
import TreeShell.Program

/-! # The working directory of an identity

The store remembers the working directory of every identity. It is read once, before the first command,
and written whenever it changes.
-/

namespace TreeShell.Context

/-- Takes over the remembered working directory; without one that begins with a slash the root becomes
the working directory and is remembered. -/
def load (identity : String) : Program Unit := do
  match ← Program.fetch (Key.cwd identity) with
  | .text path =>
    if Text.startsWith path "/" then Program.changeDirectory path
    else
      Program.changeDirectory "/"
      Program.write (Key.cwd identity) (.text "/")
  | _ =>
    Program.changeDirectory "/"
    Program.write (Key.cwd identity) (.text "/")

/-- Makes a path the working directory and remembers it. -/
def changeDirectory (identity path : String) : Program Unit := do
  Program.changeDirectory path
  Program.write (Key.cwd identity) (.text path)

end TreeShell.Context
