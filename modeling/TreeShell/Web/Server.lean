import TreeShell.Chat
import TreeShell.Number.Numeral
import TreeShell.Text.Percent
import TreeShell.Web.Page

/-! # The dashboard

The chat over HTTP. A message and the answer to a prompt are posted as JSON with the identity of the
sender in a header; the audit database is reported on. A body of the wrong form is refused before the
identity is looked at, and a request without an identity before anything runs. A failing store gives
status 502 and one log record.
-/

namespace TreeShell.Web

/-- A request; the target is a path with an optional query. -/
structure Request where
  method : String
  target : String
  body : Option Value
  identity : Option String
deriving DecidableEq, Repr

/-- What a response carries. -/
inductive Body where
  | json (value : Value)
  | page (text : String)
  /-- A report on the form of the request. -/
  | malformed
deriving DecidableEq, Repr

/-- A response. -/
structure Response where
  status : Nat
  body : Body
deriving DecidableEq, Repr

/-- What can be requested. -/
inductive Route where
  | index
  | message
  | answer
  | recentCommands
  | topCommands
  | elevations
deriving DecidableEq, Repr

namespace Route

/-- The route of a path. -/
def ofPath? (path : String) : Option Route :=
  match path with
  | "/" => some .index
  | "/api/shell" => some .message
  | "/api/shell/respond" => some .answer
  | "/api/commands/recent" => some .recentCommands
  | "/api/commands/top" => some .topCommands
  | "/api/elevations" => some .elevations
  | _ => none

/-- The method that a route takes. -/
def method : Route → String
  | .message | .answer => "POST"
  | _ => "GET"

end Route

/-- The path of a target. -/
def pathOf (target : String) : String :=
  Percent.decode (String.ofList (target.toList.takeWhile (· ≠ '?')))

/-- The route of a target; slashes at the end of its path do not count. -/
def routeOf? (target : String) : Option Route :=
  let path := pathOf target
  Route.ofPath? path <|> Route.ofPath? (Text.dropTrailing '/' path)

/-- A part of a query as it was meant: a plus is a blank. -/
def queryText (cs : List Char) : String :=
  Percent.decode (String.ofList (cs.map fun c => if c = '+' then ' ' else c))

/-- The names and values of the query of a target. -/
def queryOf (target : String) : List (String × String) :=
  let query := (target.toList.dropWhile (· ≠ '?')).drop 1
  ((query.splitOn '&').filter fun piece => !piece.isEmpty).map fun piece =>
    (queryText (piece.takeWhile (· ≠ '=')), queryText ((piece.dropWhile (· ≠ '=')).drop 1))

/-- The last value that a query gives a name. -/
def queryValue? (target name : String) : Option String :=
  ((queryOf target).reverse.find? fun p => p.1 = name).map (·.2)

/-- A response with a reason. -/
def detail (status : Nat) (reason : String) : Response :=
  ⟨status, .json (.mapping [("detail", .text reason)])⟩

def notFound : Response := detail 404 "Not Found"

def methodNotAllowed : Response := detail 405 "Method Not Allowed"

def notSignedIn : Response := detail 401 "Must be signed in"

def malformed : Response := ⟨422, .malformed⟩

/-- A field of a body that is a text or missing; nothing if it is something else. -/
def optionalText? (entries : Entries) (name : String) : Option (Option String) :=
  match Assoc.get? entries name with
  | none => some none
  | some .null => some none
  | some (.text s) => some (some s)
  | some _ => none

/-- The message and the elevation password in a body. -/
def messageOf? : Option Value → Option (String × Answer)
  | some (.mapping entries) =>
    match Assoc.get? entries "message", optionalText? entries "sudo_password" with
    | some (.text message), some password => some (message, password)
    | _, _ => none
  | _ => none

/-- The answer in a body. -/
def answerOf? : Option Value → Option Answer
  | some (.mapping entries) => optionalText? entries "answer"
  | _ => none

/-- What a client learns of a response of the shell. -/
def responseValue : TreeShell.Response → Value
  | .reply text => .mapping [("status", .text "reply"), ("text", .text text)]
  | .awaiting prompt =>
    .mapping
      [("status", .text "awaiting_input"),
        ("prompt", .mapping
          [("label", .text prompt.label), ("kind", .text prompt.kind.name), ("initial", .text prompt.initial)])]

/-- The response to what the chat made of a request; an error that is none of the store's is passed on. -/
def chatResponse (identity : String) (r : Except ShellError TreeShell.Response × Chat) :
    Except ShellError Response × Chat :=
  match r with
  | (.ok response, c) => (.ok ⟨200, .json (responseValue response)⟩, c)
  | (.error (.store error), c) =>
    (.ok ⟨502, .json (.mapping
        [("status", .text "error"), ("text", .text ("shell: storage error: " ++ error.message))])⟩,
      c.record (.storeFailure identity error.message))
  | (.error error, c) => (.error error, c)

/-- Runs a request of the sender, who must be known. -/
def withIdentity (c : Chat) (identity : Option String)
    (act : String → Except ShellError TreeShell.Response × Chat) : Except ShellError Response × Chat :=
  match identity with
  | none => (.ok notSignedIn, c)
  | some identity =>
    if identity = "" then (.ok notSignedIn, c) else chatResponse identity (act identity)

def bit (b : Bool) : Value :=
  .int (if b then 1 else 0)

def optionalValue (s : Option String) : Value :=
  (s.map Value.text).getD .null

/-- An accepted command as JSON. -/
def commandValue (r : CommandRow) : Value :=
  .mapping [("identity", .text r.identity), ("command", optionalValue r.command), ("elevated", bit r.elevated)]

/-- The count of a command as JSON. -/
def countValue (r : CommandCount) : Value :=
  .mapping [("command", optionalValue r.command), ("cnt", .int r.count)]

/-- A check of the elevation password as JSON. -/
def elevationValue (r : ElevationRow) : Value :=
  .mapping [("id", .int r.id), ("identity", .text r.identity), ("success", bit r.success)]

/-- A report on the audit database; without one it is empty. -/
def report {α : Type} (c : Chat) (rows : AuditDatabase → Except AuditError (List α)) (value : α → Value) :
    Response :=
  match c.database with
  | none => ⟨200, .json (.list [])⟩
  | some db =>
    match rows db with
    | .ok rows => ⟨200, .json (.list (rows.map value))⟩
    | .error error => detail 500 error.message

/-- Answers a request that a route takes. -/
def respond (c : Chat) (request : Request) : Route → Except ShellError Response × Chat
  | .index => (.ok ⟨200, .page (page chatHint)⟩, c)
  | .message =>
    match messageOf? request.body with
    | none => (.ok malformed, c)
    | some (message, password) =>
      withIdentity c request.identity fun identity => c.handle identity message password
  | .answer =>
    match answerOf? request.body with
    | none => (.ok malformed, c)
    | some answer => withIdentity c request.identity fun identity => c.respond identity answer
  | .recentCommands => (.ok (report c (·.recentCommands 40) commandValue), c)
  | .topCommands => (.ok (report c (·.topCommands 20) countValue), c)
  | .elevations =>
    match (queryValue? request.target "limit").map Numeral.readDecimal? with
    | some none => (.ok malformed, c)
    | limit =>
      let limit := limit.join.getD 100
      (.ok (report c (·.elevationsOf (queryValue? request.target "identity") limit) elevationValue), c)

/-- Answers a request. -/
def handle (c : Chat) (request : Request) : Except ShellError Response × Chat :=
  match routeOf? request.target with
  | none => (.ok notFound, c)
  | some route =>
    if request.method = route.method then respond c request route else (.ok methodNotAllowed, c)

end TreeShell.Web
