import TreeShell.Proofs.Chat.Steps

/-! # Chats that differ in one line

A line that waits touches nothing until it gets its answer. Chats that are the same but for what is left of one such
line answer all requests alike and stay the same but for it, up to the first answer to that very line
(`SameBut.run`). A new line of the same identity takes its place and ends the difference.
-/

namespace TreeShell

variable {owner : String} {rest rest' : Answer → Program String}

/-- Whether two shells of an identity are the same, but that one rest of a line waits in the first and another in the
second. -/
structure Shell.Differs (owner : String) (rest rest' : Answer → Program String) (s s' : Shell) : Prop where
  owned : s.identity = owner
  waits : s.pending = some rest
  otherwise : s' = { s with pending := some rest' }

/-- Whether two shells are the same, or differ in one line of an identity. -/
def Shell.SameBut (owner : String) (rest rest' : Answer → Program String) (s s' : Shell) : Prop :=
  s' = s ∨ s.Differs owner rest rest' s'

namespace Shell.SameBut

variable {s s' : Shell}

theorem identity (same : s.SameBut owner rest rest' s') : s'.identity = s.identity := by
  rcases same with rfl | ⟨-, -, rfl⟩ <;> rfl

/-- A line that is started ends the difference, unless a failing store keeps it from being started in both. -/
theorem begin (same : s.SameBut owner rest rest' s') (w : World) (line : String) (granted : Option Elevation) :
    s'.begin w line granted = s.begin w line granted ∨
      ∃ error shell shell' world, s.begin w line granted = (.error error, shell, world) ∧
        s'.begin w line granted = (.error error, shell', world) ∧ shell.SameBut owner rest rest' shell' := by
  rcases same with rfl | ⟨owned, waits, rfl⟩
  · exact .inl rfl
  · have loaded : ({ s with pending := some rest' } : Shell).ensureLoaded w =
        ((s.ensureLoaded w).1, { (s.ensureLoaded w).2.1 with pending := some rest' }, (s.ensureLoaded w).2.2) := by
      unfold ensureLoaded
      dsimp only
      split <;> rfl
    have still : (s.ensureLoaded w).2.1.identity = owner ∧ (s.ensureLoaded w).2.1.pending = some rest := by
      rw [ensureLoaded]
      split <;> exact ⟨owned, waits⟩
    unfold Shell.begin
    dsimp only
    split
    · exact .inr ⟨_, _, _, _, rfl, rfl, .inr ⟨owned, waits, rfl⟩⟩
    · rw [loaded]
      generalize s.ensureLoaded w = ready at still
      obtain ⟨result, shell, world⟩ := ready
      cases result with
      | error e => exact .inr ⟨_, _, _, _, rfl, rfl, .inr ⟨still.1, still.2, rfl⟩⟩
      | ok _ =>
        left
        dsimp only at still ⊢
        simp only [abandon, isPending, still.2, Option.isSome_some, if_true]

theorem exec (same : s.SameBut owner rest rest' s') (w : World) (line : String) (granted : Option Elevation) :
    (s'.exec w line granted).response = (s.exec w line granted).response ∧
      (s'.exec w line granted).world = (s.exec w line granted).world ∧
      (s.exec w line granted).shell.SameBut owner rest rest' (s'.exec w line granted).shell := by
  rw [Shell.exec, Shell.exec]
  rcases same.begin w line granted with alike | ⟨error, shell, shell', world, here, there, still⟩
  · rw [alike]
    exact ⟨rfl, rfl, .inl rfl⟩
  · rw [here, there]
    exact ⟨rfl, rfl, still⟩

end Shell.SameBut

namespace Chat

/-- A chat over other shells. -/
def withShells (c : Chat) (shells : Assoc Shell) : Chat :=
  { c with shells := shells }

/-! ## What does not depend on the shells -/

variable {c d : Chat} {identity command message : String} {password : Answer}

theorem audit_withShells (c : Chat) (shells : Assoc Shell) (change : AuditDatabase → AuditDatabase × List Event) :
    (c.withShells shells).audit change = (c.audit change).withShells shells := by
  obtain ⟨gate, hint, database, -, world⟩ := c
  cases database <;> rfl

theorem grants_withShells (c : Chat) (shells : Assoc Shell) (identity command : String) (password : Answer) :
    (c.withShells shells).grants identity command password =
      (c.grants identity command password).map fun r => (r.1, r.2.withShells shells) := by
  rw [grants, grants]
  split
  · rw [show (c.withShells shells).gate = c.gate from rfl]
    rcases c.gate.verify identity password with error | ⟨_ | elevation, event⟩
    · rfl
    · rfl
    · exact congrArg (fun c => some (some elevation, c)) (audit_withShells (c.record event) shells _)
  · rfl

/-- Whether a message starts a line does not depend on the shells. -/
theorem admits_withShells (c : Chat) (shells : Assoc Shell) (identity message : String) (password : Answer) :
    (c.withShells shells).admits identity message password =
      (c.admits identity message password).map fun r => (r.1, r.2.withShells shells) := by
  rw [admits, admits, show (c.withShells shells).world = c.world from rfl]
  split
  · rfl
  · rcases (BanList.isBanned identity).runOn c.world with ⟨error | banned, world⟩
    · rfl
    · dsimp only
      split
      · rfl
      · rw [show { c.withShells shells with world := world } = Chat.withShells { c with world := world } shells from rfl,
          grants_withShells, Option.map_map, Option.map_map]
        refine Option.map_congr fun r _ => ?_
        exact congrArg (Prod.mk r.1) (audit_withShells r.2 shells _)

theorem challenge_withShells (c : Chat) (shells : Assoc Shell) (refused : c.grants identity command password = none) :
    (c.withShells shells).challenge identity command password =
      ((c.challenge identity command password).1, (c.challenge identity command password).2.withShells shells) := by
  rw [grants] at refused
  rw [challenge, challenge]
  split
  · next wants =>
    rw [if_pos wants] at refused
    rw [show (c.withShells shells).gate = c.gate from rfl]
    rcases verified : c.gate.verify identity password with error | ⟨_ | elevation, event⟩
    · rfl
    · exact congrArg (Prod.mk _) (audit_withShells (c.record event) shells _)
    · rw [verified] at refused
      cases refused
  · next plain =>
    rw [if_neg plain] at refused
    cases refused

/-- A message that starts no line is answered without a look at the shells. -/
theorem handle_withShells (c : Chat) (shells : Assoc Shell) (refused : c.admits identity message password = none) :
    (c.withShells shells).handle identity message password =
      ((c.handle identity message password).1, (c.handle identity message password).2.withShells shells) := by
  rw [admits] at refused
  rw [handle, handle, show (c.withShells shells).world = c.world from rfl]
  split
  · rfl
  · next named =>
    rw [if_neg named] at refused
    generalize (BanList.isBanned identity).runOn c.world = looked at refused ⊢
    obtain ⟨error | banned, world⟩ := looked
    · rfl
    · dsimp only at refused ⊢
      split
      · rfl
      · next notBanned =>
        split
        · rfl
        · next filled =>
          rw [if_neg (not_or.mpr ⟨notBanned, filled⟩)] at refused
          exact challenge_withShells { c with world := world } shells (Option.map_eq_none_iff.mp refused)

/-! ## One line that differs -/

/-- Whether two chats are the same, or differ in one line of an identity. -/
structure SameBut (owner : String) (rest rest' : Answer → Program String) (c d : Chat) : Prop where
  gate : d.gate = c.gate
  hint : d.hint = c.hint
  database : d.database = c.database
  world : d.world = c.world
  shells : ∀ identity, (c.shellOf identity).SameBut owner rest rest' (d.shellOf identity)

namespace SameBut

theorem eq_withShells (same : SameBut owner rest rest' c d) : d = c.withShells d.shells := by
  obtain ⟨gate, hint, database, shells, world⟩ := d
  obtain ⟨rfl, rfl, rfl, rfl, -⟩ := same
  rfl

/-- A chat that has gone on with the same shells differs as before. -/
theorem withShells {c' : Chat} (same : SameBut owner rest rest' c d) (shells : c'.shells = c.shells) :
    SameBut owner rest rest' c' (c'.withShells d.shells) := by
  refine ⟨rfl, rfl, rfl, rfl, fun identity => ?_⟩
  have here : c'.shellOf identity = c.shellOf identity := by rw [shellOf, shells, shellOf]
  rw [here]
  exact same.shells identity

/-- Requests that come to the same in two shells but for the line that differs come to the same in the chats. -/
theorem delegate (same : SameBut owner rest rest' c d) (identity : String) {request : Shell → World → ShellResult}
    (comes : (request (d.shellOf identity) c.world).response = (request (c.shellOf identity) c.world).response ∧
      (request (d.shellOf identity) c.world).world = (request (c.shellOf identity) c.world).world ∧
      (request (c.shellOf identity) c.world).shell.SameBut owner rest rest' (request (d.shellOf identity) c.world).shell) :
    (d.delegate identity request).1 = (c.delegate identity request).1 ∧
      SameBut owner rest rest' (c.delegate identity request).2 (d.delegate identity request).2 := by
  obtain ⟨response, world, shell⟩ := comes
  have frames : d.frame = c.frame := by
    funext r
    cases r <;> simp only [frame, same.hint]
  rw [Chat.delegate, Chat.delegate, same.world, response, world, frames]
  refine ⟨rfl, same.gate, same.hint, same.database, rfl, fun other => ?_⟩
  rw [shellOf_withShell, shellOf_withShell, shell.identity]
  split
  · exact shell
  · exact same.shells other

/-- A request that is not the answer to the line that differs comes to the same. -/
theorem step (same : SameBut owner rest rest' c d) {s : Step}
    (spares : ∀ identity answer, s = .respond identity answer →
      ¬ (c.shellOf identity).Differs owner rest rest' (d.shellOf identity)) :
    (d.step s).1 = (c.step s).1 ∧ SameBut owner rest rest' (c.step s).2 (d.step s).2 := by
  cases s with
  | handle identity message password =>
    have there := admits_withShells c d.shells identity message password
    rw [Chat.step, Chat.step]
    cases admits : c.admits identity message password with
    | none =>
      rw [same.eq_withShells, handle_withShells c d.shells admits]
      exact ⟨rfl, same.withShells (handle_of_not_admitted admits).shells⟩
    | some admitted =>
      obtain ⟨granted, c'⟩ := admitted
      rw [admits, ← same.eq_withShells] at there
      have here := admitted_of_admits admits
      have launched := same.withShells here.same.shells
      rw [here.handled, (admitted_of_admits there).handled]
      exact launched.delegate identity ((launched.shells identity).exec ..)
  | respond identity answer =>
    have equal : d.shellOf identity = c.shellOf identity :=
      (same.shells identity).resolve_right (spares identity answer rfl)
    rw [Chat.step, Chat.step, respond, respond]
    split
    · exact ⟨rfl, same⟩
    · refine same.delegate identity ?_
      rw [equal]
      exact ⟨rfl, rfl, .inl rfl⟩

/-- Two such chats answer requests alike, all of them or up to the first answer to the line that differs. -/
theorem run (same : SameBut owner rest rest' c d) (later : List Step) :
    d.responses later = c.responses later ∧ SameBut owner rest rest' (c.after later) (d.after later) ∨
      ∃ front identity answer back, later = front ++ .respond identity answer :: back ∧
        ((c.after front).shellOf identity).Differs owner rest rest' ((d.after front).shellOf identity) ∧
        d.responses front = c.responses front ∧ SameBut owner rest rest' (c.after front) (d.after front) := by
  induction later generalizing c d with
  | nil => exact .inl ⟨rfl, same⟩
  | cons s later ih =>
    by_cases answers : ∃ identity answer, s = .respond identity answer ∧
        (c.shellOf identity).Differs owner rest rest' (d.shellOf identity)
    · obtain ⟨identity, answer, rfl, differs⟩ := answers
      exact .inr ⟨[], identity, answer, later, rfl, differs, rfl, same⟩
    · obtain ⟨response, still⟩ :=
        same.step fun identity answer own differs => answers ⟨identity, answer, own, differs⟩
      rcases ih still with ⟨responses, alike⟩ | ⟨front, identity, answer, back, rfl, differs, responses, alike⟩
      · exact .inl ⟨by rw [Chat.responses, Chat.responses, response, responses], alike⟩
      · refine .inr ⟨s :: front, identity, answer, back, rfl, differs, ?_, alike⟩
        rw [Chat.responses, Chat.responses, response, responses]

end SameBut

end Chat

end TreeShell
