import TreeShell.Number.Numeral
import TreeShell.Text.Quoted

/-! # Command-line arguments

The options of the program have long names, any of which may be cut short as long as it stays unique. An
option that takes a value finds it after an equals sign or in the next argument, which must not look like
an option; negative numbers and arguments with a blank do not. All arguments are classified before the
first is used, so an ambiguous one is reported before any wrong value.
-/

namespace TreeShell.Launch

/-- The options. -/
inductive Opt where
  | help
  | host
  | port
  | user
  | password
  | openAccess
  | noDatabase
  | store
  | remoteUrl
  | dashboard
  | dashboardPort
deriving DecidableEq, Repr

namespace Opt

/-- The names of the options in the order in which they were introduced. -/
def names : List (String × Opt) :=
  [("-h", .help), ("--help", .help), ("--host", .host), ("--port", .port), ("--user", .user),
    ("--pass", .password), ("--open", .openAccess), ("--no-db", .noDatabase), ("--store", .store),
    ("--firebase-url", .remoteUrl), ("--dashboard", .dashboard), ("--dashboard-port", .dashboardPort)]

/-- The option with exactly a name. -/
def named? (name : String) : Option Opt :=
  names.lookup name

/-- The name of an option in messages. -/
def title (o : Opt) : String :=
  "/".intercalate ((names.filter (·.2 = o)).map (·.1))

/-- Whether an option takes a value. -/
def takesValue : Opt → Bool
  | .help | .openAccess | .noDatabase | .dashboard => false
  | _ => true

end Opt

/-- What is wrong with the arguments. -/
inductive ArgumentError where
  | ambiguous (argument : String) (candidates : List String)
  | missingValue (option : Opt)
  | unexpectedValue (option : Opt) (value : String)
  | notANumber (option : Opt) (value : String)
  | notAChoice (option : Opt) (value : String) (choices : List String)
  | unrecognized (arguments : List String)
deriving DecidableEq, Repr

namespace ArgumentError

/-- A message about an option. -/
def about (option : Opt) (text : String) : String :=
  "argument " ++ option.title ++ ": " ++ text

/-- The wording of an error. -/
def message : ArgumentError → String
  | .ambiguous argument candidates =>
    "ambiguous option: " ++ argument ++ " could match " ++ ", ".intercalate candidates
  | .missingValue option => about option "expected one argument"
  | .unexpectedValue option value => about option ("ignored explicit argument " ++ Text.quoted value)
  | .notANumber option value => about option ("invalid int value: " ++ Text.quoted value)
  | .notAChoice option value choices =>
    about option
      ("invalid choice: " ++ Text.quoted value ++ " (choose from " ++
        ", ".intercalate (choices.map Text.quoted) ++ ")")
  | .unrecognized arguments => "unrecognized arguments: " ++ " ".intercalate arguments

end ArgumentError

/-- What an argument looks like. -/
inductive Token where
  /-- Not an option: a value, or superfluous. -/
  | plain
  /-- An option, with the value after its equals sign if there is one. -/
  | option (option : Opt) (value : Option String)
  /-- A `-h` with further characters. -/
  | helpCluster (more : List Char)
  /-- Like an option, but none. -/
  | unknown
  /-- The mark after which nothing is an option. -/
  | separator
deriving DecidableEq, Repr

/-- The name and the value of an argument with an equals sign. -/
def splitValue (argument : String) : String × Option String :=
  let cs := argument.toList
  if '=' ∈ cs then
    (String.ofList (cs.takeWhile (· ≠ '=')), some (String.ofList ((cs.dropWhile (· ≠ '=')).drop 1)))
  else (argument, none)

/-- Whether some characters are a negative number: digits, or digits around a point with some after it,
and perhaps a line feed at the end. -/
def isNegativeNumber : List Char → Bool
  | '-' :: rest =>
    let cs := if rest.getLast? = some '\n' then rest.dropLast else rest
    let digits := cs.takeWhile fun c => (Numeral.digit? c).isSome
    match cs.dropWhile fun c => (Numeral.digit? c).isSome with
    | [] => !digits.isEmpty
    | '.' :: fraction => !fraction.isEmpty && fraction.all fun c => (Numeral.digit? c).isSome
    | _ => false
  | _ => false

/-- The token of an argument that begins with a dash and is neither a name nor a name with a value. -/
def abbreviated (argument : String) : Except ArgumentError Token :=
  let cs := argument.toList
  let (name, value) := splitValue argument
  let candidates := Opt.names.filter fun n => Text.startsWith n.1 "--" && Text.startsWith n.1 name
  if Text.startsWith argument "--" then
    match candidates with
    | [(_, option)] => .ok (.option option value)
    | [] => .ok (if ' ' ∈ cs then .plain else .unknown)
    | _ => .error (.ambiguous argument (candidates.map (·.1)))
  else if Text.startsWith argument "-h" then .ok (.helpCluster (cs.drop 2))
  else .ok (if isNegativeNumber cs ∨ ' ' ∈ cs then .plain else .unknown)

/-- The token of an argument. -/
def classify (argument : String) : Except ArgumentError Token :=
  if !Text.startsWith argument "-" then .ok .plain
  else
    match Opt.named? argument with
    | some option => .ok (.option option none)
    | none =>
      if argument = "-" then .ok .plain
      else
        match splitValue argument with
        | (name, some value) =>
          match Opt.named? name with
          | some option => .ok (.option option (some value))
          | none => abbreviated argument
        | (_, none) => abbreviated argument

/-- The arguments with their tokens; after the separator all are plain. -/
def classifyAll : List String → Except ArgumentError (List (String × Token))
  | [] => .ok []
  | "--" :: rest => .ok (("--", .separator) :: rest.map fun a => (a, .plain))
  | argument :: rest => do
    let token ← classify argument
    return (argument, token) :: (← classifyAll rest)

/-- What the arguments ask for. -/
structure Arguments where
  host : String := "0.0.0.0"
  port : Int := 2222
  user : String := ""
  password : String := ""
  openAccess : Bool := false
  noDatabase : Bool := false
  backend : String := "memory"
  remoteUrl : String := ""
  dashboard : Bool := false
  dashboardPort : Int := 5000
deriving DecidableEq, Repr

/-- Why the program does not start. -/
inductive Refused where
  /-- Help was asked for. -/
  | help
  | usage (error : ArgumentError)
deriving DecidableEq, Repr

/-- The backends that can be chosen. -/
def backends : List String := ["memory", "firebase"]

/-- The number in the value of an option. -/
def number (option : Opt) (value : String) : Except Refused Int :=
  match Numeral.read? value with
  | some n => .ok n
  | none => .error (.usage (.notANumber option value))

/-- Gives an option that takes a value its value. -/
def Arguments.assign (a : Arguments) (option : Opt) (value : String) : Except Refused Arguments :=
  match option with
  | .host => .ok { a with host := value }
  | .port => (number .port value).map fun n => { a with port := n }
  | .user => .ok { a with user := value }
  | .password => .ok { a with password := value }
  | .store =>
    if backends.contains value then .ok { a with backend := value }
    else .error (.usage (.notAChoice .store value backends))
  | .remoteUrl => .ok { a with remoteUrl := value }
  | .dashboardPort => (number .dashboardPort value).map fun n => { a with dashboardPort := n }
  | _ => .error (.usage (.unexpectedValue option value))

/-- Switches an option on that takes no value. -/
def Arguments.switch (a : Arguments) : Opt → Except Refused Arguments
  | .help => .error .help
  | .openAccess => .ok { a with openAccess := true }
  | .noDatabase => .ok { a with noDatabase := true }
  | .dashboard => .ok { a with dashboard := true }
  | option => .error (.usage (.missingValue option))

/-- The refusal for a `-h` with further characters: help, unless they give it a value, which is what
follows an equals sign after another `h`, or begins with a dash. -/
def clusterRefusal : List Char → Refused
  | [] => .help
  | '-' :: rest => .usage (.unexpectedValue .help (String.ofList ('-' :: rest)))
  | 'h' :: '=' :: value => .usage (.unexpectedValue .help (String.ofList value))
  | 'h' :: rest => clusterRefusal rest
  | _ => .help

/-- Uses the arguments from left to right; those that are left over are collected. -/
def Arguments.consume (a : Arguments) :
    List (String × Token) → Except Refused (Arguments × List String)
  | [] => .ok (a, [])
  | (argument, .plain) :: rest => (a.consume rest).map fun (a, left) => (a, argument :: left)
  | (argument, .separator) :: rest => (a.consume rest).map fun (a, left) => (a, argument :: left)
  | (argument, .unknown) :: rest => (a.consume rest).map fun (a, left) => (a, argument :: left)
  | (_, .helpCluster more) :: _ => .error (clusterRefusal more)
  | (_, .option option (some value)) :: rest => do (← a.assign option value).consume rest
  | (_, .option option none) :: rest =>
    if option.takesValue then
      match rest with
      | (value, .plain) :: rest => do (← a.assign option value).consume rest
      | _ => .error (.usage (.missingValue option))
    else do (← a.switch option).consume rest

/-- What a list of arguments asks for. -/
def Arguments.parse (arguments : List String) : Except Refused Arguments :=
  match classifyAll arguments with
  | .error error => .error (.usage error)
  | .ok tokens =>
    match Arguments.consume {} tokens with
    | .error refused => .error refused
    | .ok (a, []) => .ok a
    | .ok (_, left) => .error (.usage (.unrecognized left))

end TreeShell.Launch
