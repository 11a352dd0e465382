import TreeShell.Proofs.Console.Commands

/-! # What a console comes to

A console reads the working directory and then takes turns until its input ends. `visits` lists where its turns begin, and
`callsOf` the calls on the store that the whole console makes. For every call that fails the console leaves one record in
the log (`attended`), and unless the digest is not ASCII it ends without an error (`takesTurns`).
-/

namespace TreeShell

/-- Whether an event tells that a command met a failing store. -/
def Event.isStoreFailure : Event → Bool
  | .storeFailure _ _ => true
  | _ => false

/-- Whether an event is one that a console of an identity logs. -/
inductive Event.OfConsole (identity : String) : Event → Prop
  | request {e : Event} (request : e.OfRequest identity) : OfConsole identity e
  | failure (error : String) : OfConsole identity (.storeFailure identity error)

/-- No request tells that the store fails. -/
theorem Event.filter_isStoreFailure {identity : String} {logged : List Event}
    (requests : ∀ e ∈ logged, e.OfRequest identity) : logged.filter isStoreFailure = [] := by
  refine List.filter_eq_nil_iff.mpr fun e member => ?_
  cases requests e member with
  | line line => cases line <;> exact Bool.false_ne_true
  | _ => exact Bool.false_ne_true

/-- The records of some errors of the store that an identity met. -/
def failureRecords (identity : String) (errors : List StoreError) : List Event :=
  errors.map fun e => .storeFailure identity e.message

namespace Chat

/-- The records of failing stores in the log. -/
def failures (c : Chat) : List Event :=
  c.world.events.filter Event.isStoreFailure

/-- Whether a chat came from another through a console of an identity, which made some calls on the store and recorded
those that failed. -/
structure Attended (identity : String) (c : Chat) (calls : List StoreCall) (d : Chat) : Prop extends
    Spared identity c d where
  backend : d.world.backend = c.world.backend.after calls
  events : ∃ logged, d.world.events = c.world.events ++ logged ∧ (∀ e ∈ logged, e.OfConsole identity) ∧
    logged.filter Event.isStoreFailure = failureRecords identity (c.world.backend.errors calls)

variable {identity : String} {c d e : Chat} {calls later : List StoreCall}

namespace Attended

theorem trans (first : c.Attended identity calls d) (second : d.Attended identity later e) :
    c.Attended identity (calls ++ later) e := by
  obtain ⟨logged, events, kind, records⟩ := first.events
  obtain ⟨logged', events', kind', records'⟩ := second.events
  refine ⟨first.toSpared.trans second.toSpared, ?_, logged ++ logged', ?_, List.forall_mem_append.mpr ⟨kind, kind'⟩, ?_⟩
  · rw [second.backend, first.backend, Backend.after_append]
  · rw [events', events, List.append_assoc]
  · rw [List.filter_append, records, records', Backend.errors_append, ← first.backend, failureRecords, failureRecords,
      failureRecords, List.map_append]

theorem failures (attended : c.Attended identity calls d) :
    d.failures = c.failures ++ failureRecords identity (c.world.backend.errors calls) := by
  obtain ⟨logged, events, -, records⟩ := attended.events
  rw [Chat.failures, events, List.filter_append, records, Chat.failures]

end Attended

/-- Requests of which no call fails need no record. -/
theorem Went.attended (went : c.Went identity calls d) (met : c.world.backend.errors calls = []) :
    c.Attended identity calls d := by
  obtain ⟨logged, events, kind⟩ := went.world.events
  refine ⟨went.toSpared, went.world.backend, logged, events, fun e member => .request (kind e member), ?_⟩
  rw [met]
  exact Event.filter_isStoreFailure kind

/-- A call that fails is recorded after the requests. -/
theorem Went.attended_record {error : StoreError} (went : c.Went identity calls d)
    (met : c.world.backend.errors calls = [error]) :
    c.Attended identity calls (d.record (.storeFailure identity error.message)) := by
  obtain ⟨logged, events, kind⟩ := went.world.events
  have spared : c.Spared identity (d.record (.storeFailure identity error.message)) :=
    ⟨went.settled.of_shells rfl, went.gate, went.others, went.sessions⟩
  refine ⟨spared, went.world.backend, logged ++ [.storeFailure identity error.message], ?_, ?_, ?_⟩
  · rw [record, World.record, events, List.append_assoc]
  · exact List.forall_mem_append.mpr ⟨fun e member => .request (kind e member), List.forall_mem_singleton.mpr (.failure _)⟩
  · rw [List.filter_append, Event.filter_isStoreFailure kind, met]
    rfl

end Chat

/-- A shell that reads the working directory has suspended what it had before. -/
theorem Shell.Settled.ensureLoaded {s : Shell} (settled : s.Settled) (w : World) : (s.ensureLoaded w).2.1.Settled := by
  obtain ⟨t, rfl, sound⟩ := settled
  have unread (unread : t.shell.loaded = false) : t.shell.pending = none := by
    rw [Option.eq_none_iff_forall_not_mem]
    intro rest pending
    cases unread.symm.trans (sound.loaded rest pending)
  have loading := t.shell.loading w
  generalize t.shell.ensureLoaded w = ready at loading
  cases loading with
  | known => exact ⟨t, rfl, sound⟩
  | remembered unloaded | root unloaded | failed unloaded => exact settled_of_idle (unread unloaded)

namespace Console

variable {identity : String} {c : Chat}

/-- Reading the working directory is recorded if it fails, and nothing else. -/
theorem attended_prepare (settled : c.Settled) (identity : String) :
    c.Attended identity ((c.shellOf identity).readCalls c.world) (prepare identity c) := by
  have named := settled.named identity
  have same := ((c.shellOf identity).loading c.world).same
  have ready := (settled.shells identity).ensureLoaded c.world
  obtain ⟨went, met⟩ := (c.shellOf identity).ensureLoaded_calls c.world
  rw [named] at went same
  have loads : c.Went identity ((c.shellOf identity).readCalls c.world)
      (c.withShell ((c.shellOf identity).ensureLoaded c.world).2.1 ((c.shellOf identity).ensureLoaded c.world).2.2) := by
    refine ⟨⟨settled.of_insert ready rfl, rfl, fun other differs => ?_, rfl⟩, went⟩
    rw [Chat.shellOf_withShell, same.1, if_neg differs]
  rw [prepare]
  generalize (c.shellOf identity).ensureLoaded c.world = read at loads met
  obtain ⟨error | _, shell, world⟩ := read
  · exact loads.attended_record met
  · exact loads.attended met

/-! ## Turns -/

/-- Where a turn of a console begins: the chat, and the bytes that are left. -/
structure Visit where
  chat : Chat
  bytes : List UInt8

/-- Where the turns of a console begin. -/
def visits (broken : Bool) (identity : String) (c : Chat) (bytes : List UInt8) : List Visit :=
  ⟨c, bytes⟩ ::
    if _h : (turn broken identity c bytes).next = .again then
      visits broken identity (turn broken identity c bytes).chat (turn broken identity c bytes).rest
    else []
termination_by bytes.length
decreasing_by exact turn_rest_lt _h

/-- What is known of the turns of a console. -/
structure TakesTurns (broken : Bool) (identity : String) (c : Chat) (bytes : List UInt8) (r : Run) : Prop where
  returns : c.gate.IsAscii → r.failure = none
  sent : r.sent = (visits broken identity c bytes).flatMap fun v => (turn broken identity v.chat v.bytes).sent
  attended : c.Attended identity
    ((visits broken identity c bytes).flatMap fun v => turnCalls broken identity v.chat v.bytes) r.chat
  /-- The calls that fail are those that fail in its turns. -/
  errors : c.world.backend.errors
      ((visits broken identity c bytes).flatMap fun v => turnCalls broken identity v.chat v.bytes) =
    (visits broken identity c bytes).flatMap fun v =>
      v.chat.world.backend.errors (turnCalls broken identity v.chat v.bytes)
  took : c.gate.IsAscii → ∀ v ∈ visits broken identity c bytes, Took broken identity v.chat v.bytes

variable {broken : Bool} {bytes : List UInt8}

theorem Took.next (took : Took broken identity c bytes) :
    (turn broken identity c bytes).next = .again ∨ (turn broken identity c bytes).next = .stop := by
  cases took with
  | calm met succeeds next went => exact next
  | failed k error found met told went dropped => exact .inl (congrArg Turn.next told)

theorem attended_turn (settled : c.Settled) (filled : identity ≠ "") (broken : Bool) (bytes : List UInt8) :
    c.Attended identity (turnCalls broken identity c bytes) (turn broken identity c bytes).chat := by
  rcases took settled filled broken bytes with took | ⟨error, aborted⟩
  · cases took with
    | calm met succeeds next went => exact went.attended met
    | failed k error found met told went dropped =>
      rw [told]
      exact went.attended_record met
  · exact aborted.went.attended aborted.met

theorem took_of_ascii (settled : c.Settled) (filled : identity ≠ "") (broken : Bool) (bytes : List UInt8)
    (ascii : c.gate.IsAscii) : Took broken identity c bytes := by
  rcases took settled filled broken bytes with took | ⟨error, aborted⟩
  · exact took
  · exact absurd ascii aborted.unlike

/-- A turn that is not followed by another is the only one. -/
theorem takesTurns_of_last (settled : c.Settled) (filled : identity ≠ "")
    (last : (turn broken identity c bytes).next ≠ .again) {failure : Option ShellError}
    (returns : c.gate.IsAscii → failure = none) :
    TakesTurns broken identity c bytes
      { chat := (turn broken identity c bytes).chat, sent := (turn broken identity c bytes).sent
        rest := (turn broken identity c bytes).rest, failure } := by
  have only : visits broken identity c bytes = [⟨c, bytes⟩] := by rw [visits, dif_neg last]
  refine ⟨returns, ?_, ?_, ?_, fun ascii => ?_⟩ <;> rw [only]
  · rw [List.flatMap_singleton]
  · rw [List.flatMap_singleton]
    exact attended_turn settled filled broken bytes
  · rw [List.flatMap_singleton, List.flatMap_singleton]
  · exact List.forall_mem_singleton.mpr (took_of_ascii settled filled broken bytes ascii)

/-- What is known of one turn is known of all. -/
theorem takesTurns (settled : c.Settled) (filled : identity ≠ "") (broken : Bool) (bytes : List UInt8) :
    TakesTurns broken identity c bytes (takeTurns broken identity c bytes) := by
  -- along the turns, which hand on to each other that the chat is settled
  fun_induction takeTurns broken identity c bytes with
  | case1 c bytes t next =>
    have stops : (turn broken identity c bytes).next = .stop := next
    exact takesTurns_of_last settled filled (by rw [stops]; nofun) fun _ => rfl
  | case2 c bytes t error next =>
    have aborts : (turn broken identity c bytes).next = .abort error := next
    refine takesTurns_of_last settled filled (by rw [aborts]; nofun) fun ascii => ?_
    rcases (took_of_ascii settled filled broken bytes ascii).next with again | stop
    · cases aborts.symm.trans again
    · cases aborts.symm.trans stop
  | case3 c bytes t next later ih =>
    have attended := attended_turn settled filled broken bytes
    have more : visits broken identity c bytes = ⟨c, bytes⟩ :: visits broken identity t.chat t.rest := by
      rw [visits, dif_pos next]
    obtain ⟨returns, sent, rest, errors, took⟩ := ih attended.settled
    have digest (ascii : c.gate.IsAscii) : t.chat.gate.IsAscii := attended.gate ▸ ascii
    refine ⟨fun ascii => returns (digest ascii), ?_, ?_, ?_, fun ascii => ?_⟩ <;> rw [more]
    · rw [List.flatMap_cons, ← sent]
    · exact attended.trans rest
    · rw [List.flatMap_cons, List.flatMap_cons, Backend.errors_append, ← attended.backend, errors]
    · exact List.forall_mem_cons.mpr ⟨took_of_ascii settled filled broken bytes ascii, took (digest ascii)⟩

/-- However its turns went, a console is at its end when its channel is closed. -/
theorem closed_run (identity : String) (c : Chat) (input : Input) : (run identity c input).closed = true := by
  rw [run, Run.close]

/-- The calls on the store that a console makes. -/
def callsOf (identity : String) (c : Chat) (input : Input) : List StoreCall :=
  (c.shellOf identity).readCalls c.world ++
    (visits input.broken identity (prepare identity c) input.bytes).flatMap fun v =>
      turnCalls input.broken identity v.chat v.bytes

/-- A console goes on with the chat by its calls, and records those that fail. -/
theorem attended (settled : c.Settled) (filled : identity ≠ "") (input : Input) :
    c.Attended identity (callsOf identity c input) (run identity c input).chat := by
  have prepared := attended_prepare settled identity
  exact prepared.trans (takesTurns prepared.settled filled input.broken input.bytes).attended

/-- Unless the digest is not ASCII, nothing breaks a console off. -/
theorem returns (settled : c.Settled) (ascii : c.gate.IsAscii) (filled : identity ≠ "") (input : Input) :
    (run identity c input).failure = none := by
  have prepared := attended_prepare settled identity
  exact (takesTurns prepared.settled filled input.broken input.bytes).returns (prepared.gate ▸ ascii)

end Console

end TreeShell
