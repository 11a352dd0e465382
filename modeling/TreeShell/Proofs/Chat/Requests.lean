import TreeShell.Proofs.AuditTrail
import TreeShell.Proofs.Chat.Talks
import TreeShell.Proofs.Shell.Requests

/-! # What a step of a chat comes to

A message begins with a look at the ban list, and a step that reaches a shell goes on with what the shell makes of it.
`Chat.calls` lists the calls on the store that this takes. A step leaves the backend that they leave, logs what a request
of its identity logs, and touches neither the shells of others nor the sessions in the audit database
(`Chat.Settled.went_step`); its response is an error exactly if one of its calls fails (`Chat.Settled.answered`).
-/

namespace TreeShell

open Shell (Request)

theorem World.foldl_record (events : List Event) (w : World) :
    events.foldl record w = { w with events := w.events ++ events } := by
  induction events generalizing w with
  | nil => simp
  | cons e rest ih => simp [ih, record]

/-- The look at the ban list is one call, which logs nothing. -/
theorem BanList.looked (identity : String) (w : World) :
    ∃ w', w.Went identity [.get (Key.ban identity)] w' ∧
      ((∃ error, (isBanned identity).runOn w = (.error error, w') ∧
          w.backend.errors [.get (Key.ban identity)] = [error]) ∨
        ∃ banned, (isBanned identity).runOn w = (.ok banned, w') ∧ w.backend.errors [.get (Key.ban identity)] = []) := by
  refine ⟨{ w with backend := (w.backend.call (.get (Key.ban identity))).2 },
    ⟨rfl, [], (List.append_nil _).symm, List.forall_mem_nil _⟩, ?_⟩
  rw [isBanned_eq, Program.runOn, Program.converse, Backend.errors]
  rcases w.backend.call (.get (Key.ban identity)) with ⟨error | v, backend⟩
  · exact .inl ⟨error, rfl, rfl⟩
  · exact .inr ⟨_, rfl, rfl⟩

/-- All that a change of the audit database logs is that it was refused. -/
theorem AuditDatabase.ofRequest_change (db : AuditDatabase) (statement : String)
    (apply : AuditTables → Except AuditError AuditTables) (identity : String) :
    ∀ e ∈ (db.change statement apply).2, e.OfRequest identity := by
  cases db with
  | disabled => exact List.forall_mem_nil _
  | enabled tables =>
    rw [change]
    dsimp only
    split
    · exact List.forall_mem_singleton.mpr (.refused ..)
    · split
      · exact List.forall_mem_nil _
      · exact List.forall_mem_singleton.mpr (.refused ..)

/-- The sessions in an audit database that is enabled, and whether it is closed. -/
def AuditDatabase.sessions? : AuditDatabase → Option (List SessionRow × Bool)
  | .disabled => none
  | .enabled t => some (t.sessions, t.closed)

/-- A change of the tables that spares the sessions. -/
theorem AuditDatabase.sessions?_change (db : AuditDatabase) (statement : String)
    (apply : AuditTables → Except AuditError AuditTables)
    (spares : ∀ t t', apply t = .ok t' → t'.sessions = t.sessions ∧ t'.closed = t.closed) :
    (db.change statement apply).1.sessions? = db.sessions? := by
  cases db with
  | disabled => rfl
  | enabled t =>
    rw [change]
    dsimp only
    split
    · rfl
    · split
      · next t' changed =>
        obtain ⟨sessions, closed⟩ := spares t t' changed
        rw [sessions?, sessions?, sessions, closed]
      · rfl

namespace Chat

/-- The look at the ban list with which a message begins. -/
def Step.looks : Step → List StoreCall
  | .handle identity _ _ => if identity = "" then [] else [.get (Key.ban identity)]
  | .respond _ _ => []

/-- The calls on the store that a step makes. -/
def calls (c : Chat) (s : Step) : List StoreCall :=
  s.looks ++
    match c.request? s with
    | none => []
    | some (w, request) => (c.shellOf s.identity).calls w request

/-- Whether the shells of a chat are those of their identities, and have suspended nothing but what is left of lines that
they began. -/
structure Settled (c : Chat) : Prop where
  named : ∀ identity, (c.shellOf identity).identity = identity
  shells : ∀ identity, (c.shellOf identity).Settled

/-- The sessions in the audit database of a chat, if it has one that is enabled, and whether that is closed. -/
def sessions? (c : Chat) : Option (List SessionRow × Bool) :=
  c.database.bind AuditDatabase.sessions?

/-- Whether a chat, settled now, differs from another neither in the gate, nor in the shells of other identities, nor in
the sessions. -/
structure Spared (identity : String) (c d : Chat) : Prop where
  settled : d.Settled
  gate : d.gate = c.gate
  others : ∀ other, other ≠ identity → d.shellOf other = c.shellOf other
  sessions : d.sessions? = c.sessions?

/-- Whether a chat came from another by requests of an identity, which made some calls on the store. -/
structure Went (identity : String) (c : Chat) (calls : List StoreCall) (d : Chat) : Prop extends
    Spared identity c d where
  world : c.world.Went identity calls d.world

variable {c d e : Chat} {s : Step} {identity message command : String} {password : Answer} {granted : Option Elevation}
  {calls later : List StoreCall}

theorem Spared.trans (first : c.Spared identity d) (second : d.Spared identity e) : c.Spared identity e where
  settled := second.settled
  gate := second.gate.trans first.gate
  others other differs := (second.others other differs).trans (first.others other differs)
  sessions := second.sessions.trans first.sessions

theorem Went.refl (identity : String) (settled : c.Settled) : c.Went identity [] c :=
  ⟨⟨settled, rfl, fun _ _ => rfl, rfl⟩, .refl identity c.world⟩

theorem Went.trans (first : c.Went identity calls d) (second : d.Went identity later e) :
    c.Went identity (calls ++ later) e :=
  ⟨first.toSpared.trans second.toSpared, first.world.trans second.world⟩

/-- Nothing has been said to the shells of a fresh chat. -/
theorem settled_of_fresh (fresh : c.shells = []) : c.Settled := by
  have shell (identity : String) : c.shellOf identity = { identity := identity } := by rw [shellOf, fresh]; rfl
  refine ⟨fun identity => ?_, fun identity => ?_⟩ <;> rw [shell]
  exact Shell.settled_of_idle rfl

theorem Settled.of_shells (settled : c.Settled) (shells : d.shells = c.shells) : d.Settled := by
  have same (identity : String) : d.shellOf identity = c.shellOf identity := by rw [shellOf, shells, shellOf]
  refine ⟨fun identity => ?_, fun identity => ?_⟩ <;> rw [same]
  · exact settled.named identity
  · exact settled.shells identity

theorem Settled.of_insert {shell : Shell} (settled : c.Settled) (own : shell.Settled)
    (shells : d.shells = Assoc.insert shell.identity shell c.shells) : d.Settled := by
  have found (identity : String) : d.shellOf identity = if identity = shell.identity then shell else c.shellOf identity := by
    rw [shellOf, shells, Assoc.get?_insert]
    split <;> rfl
  refine ⟨fun identity => ?_, fun identity => ?_⟩ <;> rw [found] <;> split
  · next same => exact same.symm
  · exact settled.named identity
  · exact own
  · exact settled.shells identity

/-! ## What a message comes to before its line starts -/

/-- Whether a chat came from another before any shell was reached, by some calls on the store. -/
structure Noted (identity : String) (c : Chat) (calls : List StoreCall) (d : Chat) : Prop where
  world : c.world.Went identity calls d.world
  sessions : d.sessions? = c.sessions?

theorem Noted.refl (identity : String) (c : Chat) : c.Noted identity [] c :=
  ⟨.refl identity c.world, rfl⟩

theorem Noted.trans (first : c.Noted identity calls d) (second : d.Noted identity later e) :
    c.Noted identity (calls ++ later) e :=
  ⟨first.world.trans second.world, second.sessions.trans first.sessions⟩

/-- A change of the audit database makes no call on the store. -/
theorem went_audit (c : Chat) (identity statement : String) (apply : AuditTables → Except AuditError AuditTables) :
    c.world.Went identity [] (c.audit fun db => db.change statement apply).world := by
  rw [audit]
  cases c.database with
  | none => exact .refl identity c.world
  | some db =>
    dsimp only
    rw [World.foldl_record]
    exact .logs c.world (db.ofRequest_change _ _ identity)

theorem sessions?_audit (c : Chat) (change : AuditDatabase → AuditDatabase × List Event) :
    (c.audit change).sessions? = c.database.bind fun db => (change db).1.sessions? := by
  rw [sessions?, database_audit, Option.bind_map]
  rfl

/-- A change of the audit database that adds to other tables keeps the sessions. -/
theorem noted_audit (c : Chat) (statement : String) (apply : AuditTables → Except AuditError AuditTables)
    (spares : ∀ t t', apply t = .ok t' → t'.sessions = t.sessions ∧ t'.closed = t.closed) :
    c.Noted identity [] (c.audit fun db => db.change statement apply) := by
  refine ⟨c.went_audit identity statement apply, (c.sessions?_audit _).trans ?_⟩
  exact congrArg (Option.bind c.database) (funext fun db => db.sessions?_change statement apply spares)

theorem noted_insertCommand (c : Chat) (identity command : String) (elevated : Bool) :
    c.Noted identity [] (c.audit fun db => db.insertCommand (some identity) (some command) elevated) := by
  refine c.noted_audit _ _ fun t t' inserted => ?_
  cases inserted
  exact ⟨rfl, rfl⟩

/-- A check of the elevation password is logged and recorded. -/
theorem noted_checked (c : Chat) (identity : String) (granted success : Bool) :
    c.Noted identity []
      ((c.record (.elevationAttempt identity granted)).audit fun db => db.insertElevation (some identity) success) := by
  have recorded : c.Noted identity [] (c.record (.elevationAttempt identity granted)) :=
    ⟨.logs c.world (List.forall_mem_singleton.mpr (.checked granted)), rfl⟩
  refine recorded.trans (noted_audit _ _ _ fun t t' inserted => ?_)
  cases inserted
  exact ⟨rfl, rfl⟩

theorem noted_of_grants (grants : c.grants identity command password = some (granted, d)) : c.Noted identity [] d := by
  rw [Chat.grants] at grants
  split at grants
  · rw [Gate.verify] at grants
    generalize c.gate.accepts password = checked at grants
    obtain _ | _ | _ := checked
    · cases grants
    · cases grants
    · obtain ⟨rfl, rfl⟩ := Prod.mk.inj (Option.some.inj grants)
      exact c.noted_checked identity true true
  · obtain ⟨rfl, rfl⟩ := Prod.mk.inj (Option.some.inj grants)
    exact .refl identity c

/-- Whether a response tells of nothing but a digest that cannot be compared, and of that only if it is not ASCII. -/
def Harmless (c : Chat) (response : Except ShellError Response) : Prop :=
  storeErrors response = [] ∧ (c.gate.IsAscii → ∃ reply, response = .ok reply)

/-- A command whose check fails gets a reply, or the digest cannot be compared. -/
theorem challenge_refused (refused : c.grants identity command password = none) :
    c.Noted identity [] (c.challenge identity command password).2 ∧
      c.Harmless (c.challenge identity command password).1 := by
  have ascii (digest : c.gate.IsAscii) := digest.exists_accepts password
  rw [Chat.grants] at refused
  rw [challenge]
  split
  · next wants =>
    rw [if_pos wants, Gate.verify] at refused
    rw [Gate.verify]
    generalize c.gate.accepts password = checked at ascii refused ⊢
    obtain error | _ | _ := checked
    · refine ⟨.refl identity c, rfl, fun digest => ?_⟩
      obtain ⟨granted, compared⟩ := ascii digest
      cases compared
    · exact ⟨c.noted_checked identity false false, rfl, fun _ => ⟨_, rfl⟩⟩
    · cases refused
  · next plain =>
    rw [if_neg plain] at refused
    cases refused

/-- Before its line starts, a message has looked at the ban list, and that look did not fail. -/
theorem noted_of_admits (admits : c.admits identity message password = some (granted, d)) :
    c.Noted identity [.get (Key.ban identity)] d ∧ c.world.backend.errors [.get (Key.ban identity)] = [] := by
  rw [Chat.admits] at admits
  split at admits
  · cases admits
  · obtain ⟨world, looked, ⟨error, ran, -⟩ | ⟨banned, ran, quiet⟩⟩ := BanList.looked identity c.world
    · rw [ran] at admits
      cases admits
    · rw [ran] at admits
      dsimp only at admits
      split at admits
      · cases admits
      · obtain ⟨⟨granted, c'⟩, grants, launches⟩ := Option.map_eq_some_iff.mp admits
        obtain ⟨rfl, rfl⟩ := Prod.mk.inj launches
        have seen : c.Noted identity [.get (Key.ban identity)] { c with world := world } := ⟨looked, rfl⟩
        exact ⟨(seen.trans (noted_of_grants grants)).trans (noted_insertCommand ..), quiet⟩

/-- What comes of a message that starts no line: its look at the ban list fails, or it is answered after it. -/
inductive Refused (c : Chat) (identity : String) (r : Except ShellError Response × Chat) : Prop
  | unseen (error : StoreError) (failed : r.1 = .error (.store error))
    (met : c.world.backend.errors [.get (Key.ban identity)] = [error])
    (noted : c.Noted identity [.get (Key.ban identity)] r.2)
  | answered (harmless : c.Harmless r.1) (met : c.world.backend.errors [.get (Key.ban identity)] = [])
    (noted : c.Noted identity [.get (Key.ban identity)] r.2)

theorem Refused.noted {r : Except ShellError Response × Chat} (refused : c.Refused identity r) :
    c.Noted identity [.get (Key.ban identity)] r.2 := by
  cases refused with
  | unseen error failed met noted => exact noted
  | answered harmless met noted => exact noted

theorem refused_of_admits (filled : identity ≠ "") (refused : c.admits identity message password = none) :
    c.Refused identity (c.handle identity message password) := by
  rw [Chat.admits, if_neg filled] at refused
  rw [handle, if_neg filled]
  obtain ⟨world, looked, ⟨error, ran, met⟩ | ⟨banned, ran, quiet⟩⟩ := BanList.looked identity c.world
  · rw [ran]
    exact .unseen error rfl met ⟨looked, rfl⟩
  · have seen : c.Noted identity [.get (Key.ban identity)] { c with world := world } := ⟨looked, rfl⟩
    rw [ran] at refused ⊢
    dsimp only at refused ⊢
    split
    · exact .answered ⟨rfl, fun _ => ⟨_, rfl⟩⟩ quiet seen
    · next notBanned =>
      split
      · exact .answered ⟨rfl, fun _ => ⟨_, rfl⟩⟩ quiet seen
      · next command =>
        rw [if_neg (not_or.mpr ⟨notBanned, command⟩)] at refused
        obtain ⟨checked, harmless⟩ := challenge_refused (Option.map_eq_none_iff.mp refused)
        exact .answered harmless quiet (seen.trans checked)

/-! ## Steps -/

theorem Step.looks_handle (filled : (handle identity message password).identity ≠ "") :
    (handle identity message password).looks = [.get (Key.ban identity)] :=
  if_neg filled

theorem request?_respond {answer : Answer} (filled : (Step.respond identity answer).identity ≠ "") (c : Chat) :
    c.request? (.respond identity answer) = some (c.world, .resume answer) :=
  if_neg filled

/-- Before a shell gets its request, a step has looked at the ban list if it had to, and that look did not fail. -/
theorem went_of_request? {w : World} {request : Request} (found : c.request? s = some (w, request)) :
    c.world.Went s.identity s.looks w ∧ c.world.backend.errors s.looks = [] ∧ (c.step s).2.sessions? = c.sessions? := by
  have filled := (hands_of_request? found).filled
  cases s with
  | handle identity message password =>
    obtain ⟨⟨granted, c'⟩, admits, same⟩ := Option.map_eq_some_iff.mp found
    obtain ⟨rfl, rfl⟩ := Prod.mk.inj same
    obtain ⟨noted, quiet⟩ := noted_of_admits admits
    rw [Step.looks_handle filled, step, (admitted_of_admits admits).handled]
    exact ⟨noted.world, quiet, noted.sessions⟩
  | respond identity answer =>
    rw [request?_respond filled] at found
    obtain ⟨rfl, rfl⟩ := Prod.mk.inj (Option.some.inj found)
    refine ⟨.refl _ _, rfl, ?_⟩
    exact congrArg (Option.bind · AuditDatabase.sessions?) (database_respond c identity answer)

/-- A step that reaches no shell is a message that is refused. -/
theorem refused_of_request? (filled : s.identity ≠ "") (found : c.request? s = none) :
    s.looks = [.get (Key.ban s.identity)] ∧ c.Refused s.identity (c.step s) := by
  cases s with
  | handle identity message password =>
    exact ⟨Step.looks_handle filled, refused_of_admits filled (Option.map_eq_none_iff.mp found)⟩
  | respond identity answer =>
    rw [request?_respond filled] at found
    cases found

/-- No step touches the sessions. -/
theorem sessions?_step (c : Chat) (s : Step) : (c.step s).2.sessions? = c.sessions? := by
  by_cases filled : s.identity = ""
  · have unchanged : (c.step s).2 = c := by
      cases s with
      | handle identity message password => exact congrArg Prod.snd (if_pos filled)
      | respond identity answer => exact congrArg Prod.snd (if_pos filled)
    rw [unchanged]
  · cases found : c.request? s with
    | some handed => exact (went_of_request? found).2.2
    | none => exact (refused_of_request? filled found).2.noted.sessions

/-- What the response to a step tells. -/
structure Answered (c : Chat) (s : Step) : Prop where
  /-- One of the calls of the step failed, or none, as the response says. -/
  met : c.world.backend.errors (c.calls s) = storeErrors (c.step s).1
  store : c.gate.IsAscii → ∀ error, (c.step s).1 = .error error → ∃ e, error = .store e
  /-- After an error nothing waits, unless no shell was reached. -/
  dropped : ∀ error, (c.step s).1 = .error error →
    ((c.step s).2.shellOf s.identity).pending = none ∨ c.request? s = none ∧ (c.step s).2.shells = c.shells

namespace Settled

theorem served (settled : c.Settled) {w : World} {request : Request} (found : c.request? s = some (w, request)) :
    (c.shellOf s.identity).Served w request := by
  refine (settled.shells s.identity).served ?_ w request
  rw [settled.named]
  exact (hands_of_request? found).filled

/-- A step goes on with the shell of its identity alone. -/
theorem shellOf_step (settled : c.Settled) {w : World} {request : Request} (found : c.request? s = some (w, request))
    (identity : String) :
    (c.step s).2.shellOf identity =
      if identity = s.identity then ((c.shellOf s.identity).request w request).shell else c.shellOf identity := by
  have own := (settled.served found).identity.trans (settled.named s.identity)
  rw [shellOf, (hands_of_request? found).shells, own, Assoc.get?_insert]
  split <;> rfl

/-- A step of an identity goes on with the chat by its calls. -/
theorem went_step (settled : c.Settled) (filled : s.identity ≠ "") : c.Went s.identity (c.calls s) (c.step s).2 := by
  rw [Chat.calls]
  cases found : c.request? s with
  | none =>
    have same := sameShells_of_request? found
    obtain ⟨looks, refused⟩ := refused_of_request? filled found
    rw [List.append_nil, looks]
    exact ⟨⟨settled.of_shells same.shells, same.gate, fun other _ => same.shellOf other, c.sessions?_step s⟩,
      refused.noted.world⟩
  | some handed =>
    obtain ⟨w, request⟩ := handed
    have hands := hands_of_request? found
    have served := settled.served found
    have went := served.went
    have looked := (went_of_request? found).1
    rw [settled.named, ← hands.world] at went
    refine ⟨⟨settled.of_insert served.settled hands.shells, gate_step c s, fun other differs => ?_, c.sessions?_step s⟩,
      looked.trans went⟩
    rw [settled.shellOf_step found, if_neg differs]

/-- The response to a step is an error of the store exactly if one of its calls fails. -/
theorem answered (settled : c.Settled) (filled : s.identity ≠ "") : c.Answered s := by
  cases found : c.request? s with
  | none =>
    have shells := (sameShells_of_request? found).shells
    have calls : c.calls s = s.looks := by rw [Chat.calls, found, List.append_nil]
    obtain ⟨looks, refused⟩ := refused_of_request? filled found
    cases refused with
    | unseen e failed met noted =>
      refine ⟨?_, fun _ error stopped => ⟨e, ?_⟩, fun error _ => .inr ⟨found, shells⟩⟩
      · rw [calls, looks, met, failed, storeErrors]
      · exact Except.error.inj (stopped.symm.trans failed)
    | answered harmless met noted =>
      refine ⟨?_, fun ascii error stopped => ?_, fun error _ => .inr ⟨found, shells⟩⟩
      · rw [calls, looks, met, harmless.1]
      · obtain ⟨reply, replied⟩ := harmless.2 ascii
        cases stopped.symm.trans replied
  | some handed =>
    obtain ⟨w, request⟩ := handed
    have served := settled.served found
    have response := (hands_of_request? found).response
    obtain ⟨went, quiet, -⟩ := went_of_request? found
    have failed {error : ShellError} (failed : (c.step s).1 = .error error) :
        ((c.shellOf s.identity).request w request).response = .error error := by
      rw [response] at failed
      cases answered : ((c.shellOf s.identity).request w request).response with
      | error other => rw [answered] at failed; exact failed
      | ok reply => rw [answered] at failed; cases failed
    refine ⟨?_, fun _ error stopped => served.store error (failed stopped), fun error stopped => .inl ?_⟩
    · rw [Chat.calls, found, Backend.errors_append, quiet, ← went.backend, response, storeErrors_map]
      exact served.met
    · rw [settled.shellOf_step found, if_pos rfl]
      exact served.dropped error (failed stopped)

end Settled

end Chat

end TreeShell
