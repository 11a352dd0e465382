import TreeShell.Event
import TreeShell.Store.Basic
import TreeShell.Text.Percent

/-! # The remote store

The same four calls as requests to a database that is served over HTTP. A key becomes the path of an
address under the base of the database; writing null deletes, and writing nothing sends nothing. A
request that fails, is refused, or (when reading) has a body that does not decode fails the call and is
logged once; nothing is sent again.
-/

namespace TreeShell

/-- A database that is served over HTTP. -/
structure RemoteStore where
  /-- The address of the database without slashes at its end. -/
  base : String
  /-- The credential sent along with each request; empty for none. -/
  credential : String
  /-- The time limit of a request in seconds. -/
  timeout : Value
deriving DecidableEq, Repr

/-- A request to the database. -/
structure HttpRequest where
  method : String
  url : String
  params : List (String × String)
  body : Option Value
  timeout : Value
deriving DecidableEq, Repr

/-- What became of a request: the connection may fail, the status may tell of a failure, and the body may
not decode. -/
structure HttpResponse where
  connectionError : Option String := none
  statusError : Option String := none
  bodyError : Option String := none
  body : Value := .null
deriving DecidableEq, Repr

namespace RemoteStore

/-- A text without the slashes at both ends. -/
def dropOuterSlashes (s : String) : String :=
  Text.dropTrailing '/' (String.ofList (s.toList.dropWhile (· = '/')))

/-- The client of a database; there is none without an address. -/
def connect? (url credential : String) (timeout : Value) : Option RemoteStore :=
  if url = "" then none else some ⟨Text.dropTrailing '/' url, credential, timeout⟩

/-- The address of a key. -/
def urlOf (r : RemoteStore) (key : String) : String :=
  r.base ++ "/" ++ Percent.encode (dropOuterSlashes key) ++ ".json"

/-- The request for a call, given its method and body. -/
def requestFor (r : RemoteStore) (method key : String) (body : Option Value) (silent : Bool) : HttpRequest where
  method := method
  url := r.urlOf key
  params :=
    (if r.credential = "" then [] else [("auth", r.credential)]) ++
      (if silent then [("print", "silent")] else [])
  body := body
  timeout := r.timeout

/-- The method and body that a call is sent with; nothing is sent for a change without entries. -/
def verb? : StoreCall → Option (String × Option Value)
  | .get _ => some ("GET", none)
  | .set _ .null => some ("DELETE", none)
  | .set _ value => some ("PUT", some value)
  | .update _ [] => none
  | .update _ pairs => some ("PATCH", some (.mapping pairs))
  | .remove _ => some ("DELETE", none)

/-- The request that a call sends, if any. -/
def request? (r : RemoteStore) (call : StoreCall) : Option HttpRequest :=
  (verb? call).map fun (method, body) => r.requestFor method call.key body (method ≠ "GET")

/-- The failure of a request of the given method, if it failed. A body is read only when getting. -/
def failure? (method : String) (response : HttpResponse) : Option String :=
  response.connectionError <|> response.statusError <|>
    (if method = "GET" then response.bodyError else none)

/-- The answer to a call, and what is logged, when its request got the given response. -/
def answer (call : StoreCall) (response : HttpResponse) : Except StoreError Value × List Event :=
  match verb? call with
  | none => (.ok .null, [])
  | some (method, _) =>
    match failure? method response with
    | some error =>
      (.error ⟨method ++ " " ++ call.key ++ " failed: " ++ error, call.key⟩,
        [.requestFailure method call.key error])
    | none => (.ok (if method = "GET" then response.body else .null), [])

end RemoteStore

/-- The kinds of store that can be configured. -/
inductive StoreKind where
  | memory
  | remote (url : String)
deriving DecidableEq, Repr

/-- Why no store was set up. -/
inductive StoreSetupError where
  | missingUrl
  | unknownBackend (name : String)
deriving DecidableEq, Repr

/-- The wording of a set-up error. -/
def StoreSetupError.message : StoreSetupError → String
  | .missingUrl => "FirebaseTreeStore requires a database URL"
  | .unknownBackend name => "unknown store backend: " ++ Text.quoted name

/-- The store that a backend name and an address select. -/
def StoreKind.select (backend url : String) : Except StoreSetupError StoreKind :=
  if backend = "memory" then .ok .memory
  else if backend = "firebase" then
    if url = "" then .error .missingUrl else .ok (.remote (Text.dropTrailing '/' url))
  else .error (.unknownBackend backend)

end TreeShell
