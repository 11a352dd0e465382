import TreeShell.Chat
import TreeShell.Proofs.Program.Solo

/-! # The steps of a chat

A chat takes requests of all identities in any order: messages, and answers to prompts. A message starts a line only
if `admits` says so, with the elevation that it has then been granted, which takes a password that the gate accepts
(`admitted_of_admits`). No other message reaches a shell or the store (`handle_of_not_admitted`).
-/

namespace TreeShell

/-- A password that a gate accepts has the digest of the gate, which is not empty. -/
theorem Gate.exists_of_accepts {g : Gate} {password : Answer} (accepted : g.accepts password = .ok true) :
    ∃ text, password = some text ∧ g.expected ≠ [] ∧ (g.hash (Utf8.encode text)).toList = g.expected := by
  cases password with
  | none => cases accepted
  | some text =>
    rw [accepts] at accepted
    split at accepted
    · cases accepted
    · next filled =>
      split at accepted
      · cases accepted
      · refine ⟨text, rfl, fun empty => filled (by rw [empty]; rfl), ?_⟩
        exact of_decide_eq_true (Except.ok.inj accepted)

/-- Whether an identity is banned. -/
def Store.IsBanned (s : Store) (identity : String) : Prop :=
  s.get (Key.ban identity) ≠ .null

instance (s : Store) (identity : String) : Decidable (s.IsBanned identity) :=
  inferInstanceAs (Decidable (s.get (Key.ban identity) ≠ .null))

namespace BanList

theorem isBanned_eq (identity : String) :
    isBanned identity = .call (.get (Key.ban identity)) fun v => .done (decide (v ≠ .null)) := by
  refine congrArg (Program.call (.get (Key.ban identity))) (funext fun v => ?_)
  cases v <;> rfl

/-- A look at the ban list leaves the store alone, and if it does not fail, it tells whether the identity is banned. -/
theorem runOn_isBanned (identity : String) (w : World) :
    ((isBanned identity).runOn w).2.backend.store = w.backend.store ∧
      ∀ banned, ((isBanned identity).runOn w).1 = .ok banned → banned = decide (w.backend.store.IsBanned identity) := by
  rw [isBanned_eq, Program.runOn, Program.converse]
  cases fault : w.backend.faults w.backend.calls (.get (Key.ban identity)) with
  | some message =>
    rw [Backend.call_of_fault fault]
    refine ⟨rfl, fun _ read => ?_⟩
    cases read
  | none =>
    rw [Backend.call_of_no_fault fault]
    exact ⟨rfl, fun banned read => (Except.ok.inj read).symm⟩

end BanList

namespace Chat

/-- A request to a chat. -/
inductive Step where
  | handle (identity message : String) (password : Answer)
  | respond (identity : String) (answer : Answer)
deriving DecidableEq, Repr

/-- Whose request it is. -/
def Step.identity : Step → String
  | .handle identity _ _ => identity
  | .respond identity _ => identity

/-- What a chat makes of a request. -/
def step (c : Chat) : Step → Except ShellError Response × Chat
  | .handle identity message password => c.handle identity message password
  | .respond identity answer => c.respond identity answer

/-- A chat after some requests. -/
def after (c : Chat) (steps : List Step) : Chat :=
  steps.foldl (fun c s => (c.step s).2) c

/-- The responses of a chat to some requests. -/
def responses (c : Chat) : List Step → List (Except ShellError Response)
  | [] => []
  | s :: rest => (c.step s).1 :: (c.step s).2.responses rest

theorem after_concat (c : Chat) (steps : List Step) (s : Step) :
    c.after (steps ++ [s]) = ((c.after steps).step s).2 := by
  rw [after, List.foldl_append]
  rfl

/-- A chat on an empty store. Its gate takes the bytes of a password in hexadecimal for the digest, and expects `z`. -/
def blank : Chat where
  gate := { digest := "7A", hash := fun bytes => String.ofList (bytes.flatMap fun b => Text.hexPadded 2 b.toNat) }
  hint := ""
  database := none
  world := { backend := { store := .empty } }

/-! ## The messages that start a line -/

/-- The elevation that a command is granted and the chat after the check, unless the password is wrong. -/
def grants (c : Chat) (identity command : String) (password : Answer) : Option (Option Elevation × Chat) :=
  if wantsElevation command then
    match c.gate.verify identity password with
    | .ok (some elevation, event) =>
      some (some elevation, (c.record event).audit fun db => db.insertElevation (some identity) true)
    | _ => none
  else some (none, c)

/-- The elevation that a message is granted and the chat on which its line starts, if it starts a line. -/
def admits (c : Chat) (identity message : String) (password : Answer) : Option (Option Elevation × Chat) :=
  if identity = "" then none
  else
    match (BanList.isBanned identity).runOn c.world with
    | (.error _, _) => none
    | (.ok banned, world) =>
      if banned ∨ commandOf message = "" then none
      else
        (grants { c with world := world } identity (commandOf message) password).map fun r =>
          (r.1, r.2.audit fun db => db.insertCommand (some identity) (some (commandOf message)) r.1.isSome)

variable {c c' d : Chat} {identity command message : String} {password : Answer} {granted : Option Elevation}

/-- Whether two chats have the same shells, the same gate and hint, and the same content of the store. -/
structure SameShells (c d : Chat) : Prop where
  shells : d.shells = c.shells
  gate : d.gate = c.gate
  hint : d.hint = c.hint
  store : d.world.backend.store = c.world.backend.store

theorem SameShells.refl (c : Chat) : c.SameShells c :=
  ⟨rfl, rfl, rfl, rfl⟩

theorem SameShells.trans (first : c.SameShells c') (second : c'.SameShells d) : c.SameShells d :=
  ⟨second.shells.trans first.shells, second.gate.trans first.gate, second.hint.trans first.hint,
    second.store.trans first.store⟩

theorem backend_foldl_record (events : List Event) (w : World) :
    (events.foldl World.record w).backend = w.backend := by
  induction events generalizing w with
  | nil => rfl
  | cons e rest ih => exact ih _

theorem sameShells_audit (c : Chat) (change : AuditDatabase → AuditDatabase × List Event) :
    c.SameShells (c.audit change) := by
  rw [audit]
  cases c.database with
  | none => exact .refl c
  | some db => exact ⟨rfl, rfl, rfl, congrArg Backend.store (backend_foldl_record _ _)⟩

theorem sameShells_checked (c : Chat) (event : Event) (change : AuditDatabase → AuditDatabase × List Event) :
    c.SameShells ((c.record event).audit change) := by
  have recorded : c.SameShells (c.record event) := ⟨rfl, rfl, rfl, rfl⟩
  exact recorded.trans (sameShells_audit _ _)

/-- A command whose check succeeds is launched with the elevation that it was granted. -/
theorem challenge_of_granted (grants : c.grants identity command password = some (granted, c')) :
    c.SameShells c' ∧ (granted.isSome = true → c.gate.accepts password = .ok true) ∧
      c.challenge identity command password = c'.launch identity command granted := by
  rw [Chat.grants] at grants
  rw [challenge]
  split
  · next wants =>
    rw [if_pos wants, Gate.verify] at grants
    rw [Gate.verify]
    generalize c.gate.accepts password = checked at grants ⊢
    obtain _ | _ | _ := checked
    · cases grants
    · cases grants
    · obtain ⟨rfl, rfl⟩ := Prod.mk.inj (Option.some.inj grants)
      exact ⟨sameShells_checked .., fun _ => rfl, rfl⟩
  · next plain =>
    rw [if_neg plain] at grants
    obtain ⟨rfl, rfl⟩ := Prod.mk.inj (Option.some.inj grants)
    exact ⟨.refl c, nofun, rfl⟩

/-- A command whose check fails reaches no shell. -/
theorem challenge_of_not_granted (grants : c.grants identity command password = none) :
    c.SameShells (c.challenge identity command password).2 := by
  rw [Chat.grants] at grants
  rw [challenge]
  split
  · next wants =>
    rw [if_pos wants, Gate.verify] at grants
    rw [Gate.verify]
    generalize c.gate.accepts password = checked at grants ⊢
    obtain _ | _ | _ := checked
    · exact .refl c
    · exact sameShells_checked ..
    · cases grants
  · next plain =>
    rw [if_neg plain] at grants
    cases grants

/-- What is known of a message that starts a line on a chat. -/
structure Admitted (c : Chat) (identity message : String) (password : Answer) (granted : Option Elevation) (c' : Chat) :
    Prop where
  named : identity ≠ ""
  allowed : ¬ c.world.backend.store.IsBanned identity
  same : c.SameShells c'
  accepted : granted.isSome = true → c.gate.accepts password = .ok true
  handled : c.handle identity message password =
    c'.delegate identity fun s w => s.exec w (commandOf message) granted

/-- A message that starts a line comes from an identity that is not banned. -/
theorem admitted_of_admits (admits : c.admits identity message password = some (granted, c')) :
    c.Admitted identity message password granted c' := by
  have read := BanList.runOn_isBanned identity c.world
  rw [Chat.admits] at admits
  split at admits
  · cases admits
  · next named =>
    have handled : c.handle identity message password = _ := if_neg named
    generalize (BanList.isBanned identity).runOn c.world = looked at admits read handled
    obtain ⟨result, world⟩ := looked
    obtain ⟨store, known⟩ := read
    cases result with
    | error e => cases admits
    | ok banned =>
      dsimp only at admits handled store
      split at admits
      · cases admits
      · next free =>
        obtain ⟨notBanned, filled⟩ := not_or.mp free
        rw [if_neg notBanned, if_neg filled] at handled
        rw [known banned rfl, decide_eq_true_iff] at notBanned
        obtain ⟨⟨granted, c''⟩, grants, launches⟩ := Option.map_eq_some_iff.mp admits
        obtain ⟨rfl, rfl⟩ := Prod.mk.inj launches
        obtain ⟨same, accepted, launched⟩ := challenge_of_granted grants
        have looked : c.SameShells { c with world := world } := ⟨rfl, rfl, rfl, store⟩
        exact ⟨named, notBanned, (looked.trans same).trans (sameShells_audit _ _), accepted, handled.trans launched⟩

/-- A message that starts no line reaches no shell and leaves the store alone. -/
theorem handle_of_not_admitted (admits : c.admits identity message password = none) :
    c.SameShells (c.handle identity message password).2 := by
  have read := BanList.runOn_isBanned identity c.world
  rw [Chat.admits] at admits
  rw [handle]
  split
  · exact .refl c
  · next named =>
    rw [if_neg named] at admits
    generalize (BanList.isBanned identity).runOn c.world = looked at admits read
    obtain ⟨result, world⟩ := looked
    have looked : c.SameShells { c with world := world } := ⟨rfl, rfl, rfl, read.1⟩
    cases result with
    | error e => exact looked
    | ok banned =>
      dsimp only at admits ⊢
      split
      · exact looked
      · next notBanned =>
        split
        · exact looked
        · next filled =>
          rw [if_neg (not_or.mpr ⟨notBanned, filled⟩)] at admits
          exact looked.trans (challenge_of_not_granted (Option.map_eq_none_iff.mp admits))

/-! ## What requests leave alone -/

theorem gate_step (c : Chat) (s : Step) : (c.step s).2.gate = c.gate := by
  cases s with
  | handle identity message password =>
    rw [step]
    cases admits : c.admits identity message password with
    | none => exact (handle_of_not_admitted admits).gate
    | some launched =>
      have admitted : c.Admitted identity message password launched.1 launched.2 := admitted_of_admits admits
      rw [admitted.handled]
      exact admitted.same.gate
  | respond identity answer =>
    rw [step, respond]
    split <;> rfl

theorem gate_after (c : Chat) (steps : List Step) : (c.after steps).gate = c.gate := by
  induction steps generalizing c with
  | nil => rfl
  | cons s rest ih => exact (ih _).trans (gate_step c s)

/-- An answer does not reach the audit database. -/
theorem database_respond (c : Chat) (identity : String) (answer : Answer) :
    (c.respond identity answer).2.database = c.database := by
  rw [respond]
  split <;> rfl

/-- An answer that nothing waits for changes nothing in the store. -/
theorem store_respond_of_idle (idle : (c.shellOf identity).pending = none) (answer : Answer) :
    (c.respond identity answer).2.world.backend.store = c.world.backend.store := by
  rw [respond]
  split
  · rfl
  · rw [delegate, Shell.resume, idle]
    rfl

/-! ## Shells -/

theorem shellOf_withShell (c : Chat) (shell : Shell) (world : World) (identity : String) :
    (c.withShell shell world).shellOf identity = if identity = shell.identity then shell else c.shellOf identity := by
  rw [shellOf, withShell, Assoc.get?_insert]
  split <;> rfl

theorem SameShells.shellOf (same : c.SameShells d) (identity : String) : d.shellOf identity = c.shellOf identity := by
  rw [Chat.shellOf, same.shells]
  rfl

end Chat

end TreeShell
