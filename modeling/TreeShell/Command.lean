import TreeShell.Moderation
import TreeShell.Verb.Create
import TreeShell.Verb.Edit
import TreeShell.Verb.Inspect
import TreeShell.Verb.Transfer

/-! # Commands

A command is a name with its arguments. The verbs work on the file tree; the other commands print a
text, show the working directory, or moderate, which takes elevation.
-/

namespace TreeShell

/-- A verb with its operands; a redirect is the verb that a command line can end in. -/
inductive VerbCall where
  | ls (label : String)
  | file (label : String)
  | cd (label : String)
  | cat (label : String)
  | cp (source target : String)
  | mv (source target : String)
  | mkdir (args : List String)
  | rm (args : List String)
  | vim (args : List String)
  | redirect (label text : String)
deriving DecidableEq, Repr

namespace VerbCall

/-- The name with which a verb refuses. -/
def name : VerbCall → String
  | .ls _ => "ls"
  | .file _ => "file"
  | .cd _ => "cd"
  | .cat _ => "cat"
  | .cp _ _ => "cp"
  | .mv _ _ => "mv"
  | .mkdir _ => "mkdir"
  | .rm _ => "rm"
  | .vim _ => "vim"
  | .redirect _ _ => "shell"

/-- What a verb does for an identity. -/
def program (identity : String) (elevation : Option Elevation) : VerbCall → Program Verb.Result
  | .ls label => Verb.ls label elevation
  | .file label => Verb.file label elevation
  | .cd label => Verb.cd identity label elevation
  | .cat label => Verb.cat label elevation
  | .cp source target => Verb.cp source target elevation
  | .mv source target => Verb.mv source target elevation
  | .mkdir args => Verb.mkdir args elevation
  | .rm args => Verb.rm args elevation
  | .vim args => Verb.vim args elevation
  | .redirect label text => Verb.redirect label text elevation

/-- The text with which a verb ends. -/
def text (v : VerbCall) : Verb.Result → String
  | .ok reply => reply
  | .error refusal => refusal.message v.name

/-- What a verb does, with its text. -/
def reply (identity : String) (elevation : Option Elevation) (v : VerbCall) : Program String := do
  return v.text (← v.program identity elevation)

end VerbCall

/-- A command with its arguments. -/
inductive Command where
  | verb (call : VerbCall)
  | echo (args : List String)
  | help
  | pwd
  | ban (identity : String)
  | unban (identity : String)
  | listBanned
deriving DecidableEq, Repr

namespace Command

/-- The argument at a place, empty if there is none. -/
def argument (args : List String) (i : Nat) : String :=
  args.getD i ""

/-- The command with a name and its arguments. -/
def ofName? (name : String) (args : List String) : Option Command :=
  match name with
  | "echo" => some (.echo args)
  | "cp" => some (.verb (.cp (argument args 0) (argument args 1)))
  | "mv" => some (.verb (.mv (argument args 0) (argument args 1)))
  | "ls" => some (.verb (.ls (argument args 0)))
  | "file" => some (.verb (.file (argument args 0)))
  | "mkdir" => some (.verb (.mkdir args))
  | "vim" => some (.verb (.vim args))
  | "cd" => some (.verb (.cd (argument args 0)))
  | "rm" => some (.verb (.rm args))
  | "cat" => some (.verb (.cat (argument args 0)))
  | "ban" => some (.ban (argument args 0))
  | "unban" => some (.unban (argument args 0))
  | "listbanned" => some .listBanned
  | "help" => some .help
  | "-h" => some .help
  | "pwd" => some .pwd
  | _ => none

/-- Whether a command needs elevation. -/
def isModeration : Command → Bool
  | .ban _ | .unban _ | .listBanned => true
  | _ => false

/-- The text of `help`. -/
def helpText : String :=
  "\n".intercalate
    ["Available commands:",
      "  ls [path]            List files & directories",
      "  file <path>          File or directory?",
      "  mkdir [-s] <dir>     Make dir; -s password-protected",
      "  cd <dir>             Change directory",
      "  rm [-r] <path>       Remove; -r recursive",
      "  cp <src> <dst>       Copy file or directory",
      "  mv <src> <dst>       Move / rename",
      "  cat <file>           Show file contents",
      "  echo <text>          Print text",
      "  vim [-s] <file>      Edit file; -s password-protected",
      "  sudo ban <email>     Ban email",
      "  sudo unban <email>   Unban email",
      "  sudo listbanned      List banned emails",
      "  help, -h             Show this help text",
      "  pwd                  Print working directory",
      "",
      "Supports piping (|) & redirect (>) like Unix."]

/-- What a command does for an identity with the output of the stage before it. -/
def program (identity stdin : String) (elevation : Option Elevation) : Command → Program String
  | .verb (.cat label) => if stdin = "" then (VerbCall.cat label).reply identity elevation else return stdin
  | .verb call => call.reply identity elevation
  | .echo args => return if args.isEmpty then stdin else " ".intercalate args
  | .help => return helpText
  | .pwd => Program.workingDirectory
  | .ban target => Moderation.ban target
  | .unban target => Moderation.unban target
  | .listBanned => Moderation.listBanned

end Command

end TreeShell
