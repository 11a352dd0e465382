import TreeShell.Context
import TreeShell.Pipeline

/-! # The shell of one identity

A shell runs one command line at a time. A line that needs the user is suspended: the shell keeps the
rest of it, as a function of the answer, until it is resumed or a new line takes its place. A line that
ends, or that meets a failing store, leaves nothing suspended.
-/

namespace TreeShell

/-- What the user gets: the text with which a line ended, or the prompt at which it waits. -/
inductive Response where
  | reply (text : String)
  | awaiting (prompt : Prompt)
deriving DecidableEq, Repr

/-- What aborts a request to a shell. -/
inductive ShellError where
  | notSignedIn
  | store (error : StoreError)
  | gate (error : GateError)
deriving DecidableEq, Repr

/-- The wording of an error. -/
def ShellError.message : ShellError → String
  | .notSignedIn => "Must be signed in"
  | .store error => error.message
  | .gate error => error.message

/-- The state of one identity: the working directory, whether it was read from the store, and the rest of
a suspended line. -/
structure Shell where
  identity : String
  cwd : String := "/"
  loaded : Bool := false
  pending : Option (Answer → Program String) := none

/-- What a request to a shell comes to, with the shell and the world afterwards. -/
structure ShellResult where
  response : Except ShellError Response
  shell : Shell
  world : World

namespace Shell

/-- Whether a line is suspended. -/
def isPending (s : Shell) : Bool :=
  s.pending.isSome

/-- Runs the rest of a line up to its end, its next prompt, or a failing call. -/
def advance (s : Shell) (w : World) (p : Program String) : ShellResult :=
  match p.run ⟨w, s.cwd⟩ with
  | (.finished text, m) => ⟨.ok (.reply text), { s with cwd := m.cwd, pending := none }, m.world⟩
  | (.waiting prompt resume, m) =>
    ⟨.ok (.awaiting prompt), { s with cwd := m.cwd, pending := some resume }, m.world⟩
  | (.failed error, m) => ⟨.error (.store error), { s with cwd := m.cwd, pending := none }, m.world⟩

/-- Reads the working directory from the store. -/
def load (s : Shell) (w : World) : Except StoreError Unit × Shell × World :=
  let d := (Context.load s.identity).converse [] ⟨w, s.cwd⟩
  (d.result, { s with cwd := d.machine.cwd, loaded := s.loaded || d.result.isOk }, d.machine.world)

/-- Reads the working directory from the store unless that was done before. -/
def ensureLoaded (s : Shell) (w : World) : Except StoreError Unit × Shell × World :=
  if s.loaded then (.ok (), s, w) else s.load w

/-- Drops a suspended line. -/
def abandon (s : Shell) (w : World) : Shell × World :=
  if s.isPending then ({ s with pending := none }, w.record (.promptAbandoned s.identity)) else (s, w)

/-- Makes everything ready for a line: the working directory is known, nothing is suspended, and the line
is logged. -/
def begin (s : Shell) (w : World) (line : String) (granted : Option Elevation) :
    Except ShellError Unit × Shell × World :=
  if s.identity = "" then (.error .notSignedIn, s, w)
  else
    match s.ensureLoaded w with
    | (.error error, s, w) => (.error (.store error), s, w)
    | (.ok (), s, w) =>
      let (s, w) := s.abandon w
      (.ok (), s, w.record (.shellCommand s.identity s.cwd line granted.isSome))

/-- Starts a line, to which an elevation may be granted. -/
def exec (s : Shell) (w : World) (line : String) (granted : Option Elevation) : ShellResult :=
  match s.begin w line granted with
  | (.error error, s, w) => ⟨.error error, s, w⟩
  | (.ok (), s, w) => s.advance w (Pipeline.run s.identity line granted)

/-- Answers the prompt of the suspended line. -/
def resume (s : Shell) (w : World) (answer : Answer) : ShellResult :=
  match s.pending with
  | none => ⟨.ok (.reply "shell: nothing is waiting for input"), s, w⟩
  | some rest => s.advance w (rest answer)

/-- Runs a line to its end, answering its prompts from a list and cancelling when that is used up. -/
def execute (s : Shell) (w : World) (line : String) (granted : Option Elevation) (answers : List Answer) :
    Except ShellError String × Shell × World :=
  match s.begin w line granted with
  | (.error error, s, w) => (.error error, s, w)
  | (.ok (), s, w) =>
    let d := (Pipeline.run s.identity line granted).converse answers ⟨w, s.cwd⟩
    (d.result.mapError ShellError.store, { s with cwd := d.machine.cwd }, d.machine.world)

end Shell

end TreeShell
