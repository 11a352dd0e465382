import TreeShell.Proofs.Verb.Passwords

/-! # Password integrity

Without elevation a password goes only together with its node, and changes only at the hands of one who
knows it, or where a directory is made of nothing. A new password appears only at the operand of a verb
that protects, as it was entered twice (`VerbCall.passwords_kept`).
-/

namespace TreeShell

open Key (passwordEntry)
open Path (IsResolved isResolved_resolve)
open Verb

namespace VerbCall

/-- Whether a run of a verb has removed a path: the verb removes its operand, it has not refused, and the
path is that of the operand or of a node below it. -/
def Removes (call : VerbCall) (s : Store) (cwd : String) (result : Except StoreError Result) (path : String) : Prop :=
  ∃ label ∈ call.removedLabel?, Replied result ∧ s.GoesWith path (Path.resolve label cwd)

instance (call : VerbCall) (s : Store) (cwd : String) (result : Except StoreError Result) (path : String) :
    Decidable (call.Removes s cwd result path) :=
  inferInstanceAs (Decidable (∃ label ∈ call.removedLabel?, Replied result ∧ s.GoesWith path (Path.resolve label cwd)))

/-- Whether a run of a verb may give a path another password: the path is the operand of `vim -s` and its
password was among the answers, or that of `mkdir -s` and there is no node. -/
def Replaces (call : VerbCall) (s : Store) (cwd : String) (given : List (Prompt × Answer))
    (path password : String) : Prop :=
  ∃ label, call.protectedLabel? = some label ∧ path = Path.resolve label cwd ∧
    (((∃ args, call = .vim args) ∧ (passwordPrompt label, some password) ∈ given) ∨
      ((∃ args, call = .mkdir args) ∧ s.get (Key.node path) = .null))

end VerbCall

theorem Store.password?_eq {path : String} (resolved : IsResolved path) (s : Store) :
    s.password? path = Vault.password? (s.entry (passwordEntry path)) := by
  rw [password?, s.get_password_of_resolved resolved]

namespace Touches

variable {call : VerbCall} {u : Solo} {r : Result × Solo}

/-- A password goes with its node; else it stays, unless it is replaced. -/
theorem kept (touches : Touches call u r) {path password : String} (resolved : IsResolved path)
    (found : u.store.password? path = some password) :
    (call.Removes u.store u.cwd (.ok r.1) path → r.2.store.get (Key.password path) = .null) ∧
      (¬ call.Removes u.store u.cwd (.ok r.1) path →
        r.2.store.password? path = some password ∨ call.Replaces u.store u.cwd r.2.asked path password) := by
  have stays (same : r.2.store.entry (passwordEntry path) = u.store.entry (passwordEntry path)) :
      r.2.store.password? path = some password := by
    rw [Store.password?_eq resolved, same, ← Store.password?_eq resolved, found]
  cases touches with
  | nothing spares same =>
    constructor
    · rintro ⟨label, removes, ⟨reply, replied⟩, -⟩
      rcases spares with spared | ⟨refusal, refused⟩
      · exact absurd (spared.symm.trans removes) nofun
      · exact absurd (refused.symm.trans (Except.ok.inj replied)) nofun
    · exact fun _ => .inl (stays (same _))
  | @dropped label removes replies known others =>
    have here := known path resolved
    obtain ⟨reply, replied⟩ := replies
    constructor
    · rintro ⟨other, removes', -, goes⟩
      obtain rfl : label = other := Option.some.inj (removes.symm.trans removes')
      rw [Store.get_password_of_resolved resolved, here, if_pos goes]
    · intro spared
      have away : ¬ u.store.GoesWith path (Path.resolve label u.cwd) := fun goes =>
        spared ⟨label, removes, ⟨reply, congrArg _ replied⟩, goes⟩
      rw [if_neg away] at here
      exact .inl (stays here)
  | entered label fresh protects filled twice allowed change =>
    constructor
    · rintro ⟨other, removes, -⟩
      exact absurd ((VerbCall.removedLabel?_of_protects protects).symm.trans removes) nofun
    · intro _
      by_cases operand : path = Path.resolve label u.cwd
      · subst operand
        exact .inr ⟨label, protects, rfl, allowed password found⟩
      · refine .inl (stays ?_)
        have entries := Key.passwordEntry_eq_iff resolved.exists_names (isResolved_resolve label u.cwd).exists_names
        rw [change, if_neg (mt entries.mp operand)]

/-- An entry that is new or has changed is the operand's, with the password that was entered twice. -/
theorem fresh (touches : Touches call u r) {name : String} (there : r.2.store.entry name ≠ .null)
    (differs : r.2.store.entry name ≠ u.store.entry name) :
    ∃ label password, call.protectedLabel? = some label ∧ name = passwordEntry (Path.resolve label u.cwd) ∧
      password ≠ "" ∧ r.2.store.entry name = .text password ∧
      [(newPasswordPrompt label, some password), (confirmPrompt, some password)] <:+: r.2.asked := by
  cases touches with
  | nothing spares same => exact absurd (same name) differs
  | dropped removes replies known others =>
    rcases others name with gone | same
    · exact absurd gone there
    · exact absurd same differs
  | entered label password protects filled twice allowed change =>
    have here := change name
    split at here
    · next operand => exact ⟨label, password, protects, operand, filled, here, twice⟩
    · exact absurd here differs

end Touches

/-- Passwords keep their integrity: a verb without elevation, with whatever arguments and answers, on a
sound store that never fails, drops the passwords of what it removes, leaves all others as they are but
for one that it may replace, and adds none but the one that was entered twice for its operand. -/
theorem VerbCall.passwords_kept (call : VerbCall) (identity : String) (answers : List Answer) {m : Machine}
    (noFaults : m.world.backend.faults = FaultSchedule.none) (sound : m.world.backend.store.Sound) :
    let d := (call.program identity none).converse answers m
    let s := m.world.backend.store
    let t := d.machine.world.backend.store
    let given := exchanges d.prompts answers
    (∀ path password, IsResolved path → s.password? path = some password →
      (call.Removes s m.cwd d.result path → t.get (Key.password path) = .null) ∧
        (¬ call.Removes s m.cwd d.result path →
          t.password? path = some password ∨ call.Replaces s m.cwd given path password)) ∧
      ∀ name, t.entry name ≠ .null → t.entry name ≠ s.entry name →
        ∃ label password, call.protectedLabel? = some label ∧ name = passwordEntry (Path.resolve label m.cwd) ∧
          password ≠ "" ∧ t.entry name = .text password ∧
          [(newPasswordPrompt label, some password), (confirmPrompt, some password)] <:+: given := by
  obtain ⟨result, store, -, -, asked⟩ := (call.program identity none).converse_eq_play answers noFaults
  have touches : Touches call (m.solo answers) _ := call.touches identity sound
  dsimp only
  rw [result, store, ← asked]
  constructor
  · intro path password resolved found
    exact touches.kept resolved found
  · intro name there differs
    exact touches.fresh there differs

/-- A move takes along the passwords of what is moved, and no others. -/
theorem VerbCall.passwords_kept_on_move :
    let s : Store := ⟨[("shellFS", .mapping [("a", .text "x"), ("d", .mapping [("b", .text "y")]),
      ("__PASSWORDS__", .mapping [("a", .text "one"), (passwordEntry "/d/b", .text "two")])])]⟩
    let m : Machine := ⟨{ backend := { store := s } }, "/"⟩
    let t := (((VerbCall.mv "/d" "/e").program "alice" none).converse [] m).machine.world.backend.store
    s.Sound ∧ t.password? "/a" = some "one" ∧ t.get (Key.password "/d/b") = .null := by
  intro s m t
  have sound : s.Sound := by decide +kernel
  obtain ⟨kept, -⟩ := (VerbCall.mv "/d" "/e").passwords_kept "alice" [] (m := m) rfl sound
  have resolved : IsResolved "/a" := ⟨["a"], by decide, by decide⟩
  have below : IsResolved "/d/b" := ⟨["d", "b"], by decide, by decide⟩
  refine ⟨sound, ?_, ?_⟩
  · refine ((kept "/a" "one" resolved (by decide +kernel)).2 (by decide +kernel)).resolve_right ?_
    rintro ⟨label, protects, -⟩
    exact absurd protects nofun
  · exact (kept "/d/b" "two" below (by decide +kernel)).1 (by decide +kernel)

end TreeShell
