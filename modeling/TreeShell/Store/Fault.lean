import TreeShell.Store.Basic

/-! # Faults of the store

A call on the store can fail before it does anything. Which calls fail is a schedule: it sees how many
calls came before and the call itself, and gives the message of the failure. Rules that name a call and
a key make one kind of schedule.
-/

namespace TreeShell

/-- Which calls fail, by the number of calls before them, and with what message. -/
abbrev FaultSchedule := Nat → StoreCall → Option String

/-- The schedule by which no call fails. -/
def FaultSchedule.none : FaultSchedule := fun _ _ => Option.none

/-- A rule for failures: the calls of one name at one key, or at every key if the key is a star. -/
structure FaultRule where
  method : String
  key : String
  message : String
deriving DecidableEq, Repr

/-- Whether a rule applies to a call. -/
def FaultRule.applies (r : FaultRule) (call : StoreCall) : Bool :=
  r.method = call.method && (r.key = "*" || r.key = call.key)

/-- The schedule by which the first rule that applies to a call makes it fail. -/
def FaultSchedule.ofRules (rules : List FaultRule) : FaultSchedule := fun _ call =>
  (rules.find? fun r => r.applies call).map (·.message)

/-- A store with the calls that will fail on it. -/
structure Backend where
  store : Store
  faults : FaultSchedule := FaultSchedule.none
  /-- The number of calls so far. -/
  calls : Nat := 0

/-- Answers a call or fails it; a call that fails leaves the content alone. -/
def Backend.call (b : Backend) (c : StoreCall) : Except StoreError Value × Backend :=
  match b.faults b.calls c with
  | some message => (.error ⟨message, c.key⟩, { b with calls := b.calls + 1 })
  | none =>
    let (value, store) := b.store.perform c
    (.ok value, { b with store := store, calls := b.calls + 1 })

end TreeShell
