import TreeShell.Digest.Sha256
import TreeShell.Event
import TreeShell.Prompt
import TreeShell.Text.Utf8

/-! # Elevation

A user who knows the elevation password runs single stages of a command line with elevation, which
passes the password and metadata checks. The gate knows only the digest of that password; without a
digest nobody is elevated. A command can also elevate a step of its own that was authorized before.
-/

namespace TreeShell

/-- What an elevation rests on. -/
inductive ElevationReason where
  /-- The elevation password. -/
  | password
  /-- An earlier step of the same command. -/
  | earlierStep
deriving DecidableEq, Repr

/-- The name of a reason. -/
def ElevationReason.text : ElevationReason → String
  | .password => "sudo"
  | .earlierStep => "internal"

/-- The word that asks for elevation at the start of a stage. -/
def elevationKeyword : String := "sudo"

/-- An elevation that was granted. -/
structure Elevation where
  identity : String
  reason : ElevationReason
deriving DecidableEq, Repr

/-- How an elevation is shown. -/
def Elevation.text (e : Elevation) : String :=
  "<Elevation " ++ Text.quoted e.identity ++ " (" ++ e.reason.text ++ ")>"

/-- A check against a digest that cannot be compared. -/
inductive GateError where
  | digestNotAscii
deriving DecidableEq, Repr

/-- The wording of a gate error. -/
def GateError.message : GateError → String
  | .digestNotAscii => "comparing strings with non-ASCII characters is not supported"

/-- The check of the elevation password: the digest it must have, and the digest function, which gives
lower-case hexadecimal. -/
structure Gate where
  digest : String
  hash : List UInt8 → String := Sha256.hex

namespace Gate

/-- A character in lower case, as far as a digest can hold it: the Latin letters and the Kelvin sign. -/
def lowerChar (c : Char) : Char :=
  if c = '\u212A' then 'k' else c.toLower

/-- The digest in lower case. -/
def expected (g : Gate) : List Char :=
  g.digest.toList.map lowerChar

/-- Whether a password has the expected digest. Without a digest or a password it has not. -/
def accepts (g : Gate) : Answer → Except GateError Bool
  | none => .ok false
  | some password =>
    if g.expected.isEmpty then .ok false
    else if g.expected.any fun c => c.toNat ≥ 0x80 then .error .digestNotAscii
    else .ok ((g.hash (Utf8.encode password)).toList = g.expected)

/-- Checks a password for an identity: the elevation if it is right, and the event to log. -/
def verify (g : Gate) (identity : String) (password : Answer) :
    Except GateError (Option Elevation × Event) :=
  (g.accepts password).map fun granted =>
    (if granted then some ⟨identity, .password⟩ else none, .elevationAttempt identity granted)

end Gate

end TreeShell
