import TreeShell.Proofs.Verb.Uproots

/-! # Passwords that a verb strands

A verb strands a password if it takes the node from its path and leaves the password. With a node that it removes
a verb drops the password, so it strands those of the nodes that it uproots. `VerbCall.accounts` says of every call
that these are the only cases.
-/

namespace TreeShell

open Key (IsOrdinary passwordEntry)
open Path (IsResolved)
open Verb

namespace Store

/-- Whether there is a password for a path and a node at it. -/
def Guards (s : Store) (path : String) : Prop :=
  s.get (Key.password path) ≠ .null ∧ s.get (Key.node path) ≠ .null

/-- Whether there is a password for a path and no node at it. -/
def Outlived (s : Store) (path : String) : Prop :=
  s.get (Key.password path) ≠ .null ∧ s.get (Key.node path) = .null

instance (s : Store) (path : String) : Decidable (s.Outlived path) :=
  inferInstanceAs (Decidable (_ ∧ _))

end Store

/-- A call of a verb by an identity, without elevation, in a session. -/
structure Turn where
  identity : String
  before : Solo
  call : VerbCall

namespace Turn

/-- What the call comes to. -/
def outcome (t : Turn) : Result × Solo :=
  (t.call.program t.identity none).play t.before

/-- Whether the call has taken the node from a path with a password and left the password. -/
def Strands (t : Turn) (path : String) : Prop :=
  t.before.store.Guards path ∧ (∃ reply, t.outcome.1 = .ok reply) ∧
    t.call.Uproots t.before.store t.before.cwd path

end Turn

/-! ## What a call strands -/

namespace Store

variable {s : Store} {path removed : String}

theorem goesWith_iff (resolved : IsResolved path) (there : s.get (Key.node path) ≠ .null) :
    s.GoesWith path removed ↔ Path.isWithin path removed = true := by
  constructor
  · rintro (rfl | ⟨within, -⟩)
    · exact resolved.isWithin_self
    · exact within
  · exact fun within => .inr ⟨within, there⟩

end Store

namespace Touches

variable {call : VerbCall} {u : Solo} {r : Result × Solo}

/-- A verb that neither removes its operand nor protects it leaves every password as it is. -/
theorem entry_eq (touches : Touches call u r) (keeps : call.removedLabel? = none)
    (plain : call.protectedLabel? = none) (name : String) : r.2.store.entry name = u.store.entry name := by
  cases touches with
  | nothing spares same => exact same name
  | dropped removes => exact absurd (keeps.symm.trans removes) nofun
  | entered label password protects => exact absurd (plain.symm.trans protects) nofun

/-- A verb that has removed its operand keeps the password of a node exactly if the node is not part of it. -/
theorem password_ne_null_iff (touches : Touches call u r) {label path : String}
    (removes : call.removedLabel? = some label) (replies : ∃ reply, r.1 = .ok reply) (resolved : IsResolved path)
    (guards : u.store.Guards path) :
    r.2.store.get (Key.password path) ≠ .null ↔ Path.isWithin path (Path.resolve label u.cwd) = false := by
  have guarded := guards.1
  rw [Store.get_password_of_resolved resolved] at guarded ⊢
  cases touches with
  | nothing spares same =>
    obtain ⟨reply, replied⟩ := replies
    rcases spares with keeps | ⟨refusal, refused⟩
    · exact absurd (keeps.symm.trans removes) nofun
    · exact absurd (replied.symm.trans refused) nofun
  | @dropped other removes' _ known others =>
    obtain rfl : other = label := Option.some.inj (removes'.symm.trans removes)
    rw [known path resolved, ← Bool.not_eq_true, ← Store.goesWith_iff resolved guards.2]
    split
    · next goes => exact ⟨fun kept => absurd rfl kept, fun away => absurd goes away⟩
    · next away => exact ⟨fun _ => away, fun _ => guarded⟩
  | entered other password protects =>
    exact absurd ((VerbCall.removedLabel?_of_protects protects).symm.trans removes) nofun

end Touches

/-- Whether a call strands the passwords of the nodes that it uproots, and no others. -/
def Accounts (call : VerbCall) (u : Solo) (r : Result × Solo) : Prop :=
  ∀ path, IsOrdinary path → u.store.Guards path →
    (r.2.store.Outlived path ↔ (∃ reply, r.1 = .ok reply) ∧ call.Uproots u.store u.cwd path)

/-- A call strands the passwords of the nodes that it uproots, and no others. -/
theorem VerbCall.accounts (call : VerbCall) (identity : String) {u : Solo} (sound : u.store.Sound) :
    Accounts call u ((call.program identity none).play u) := by
  intro path ordinary guards
  have displaced := call.displaces identity sound path ordinary guards.2
  have touches := call.touches identity sound
  constructor
  · rintro ⟨locked, absent⟩
    obtain ⟨replies, ⟨label, removes, within⟩ | uproots⟩ := displaced.mp absent
    · have away := (touches.password_ne_null_iff removes replies ordinary.1 guards).mp locked
      exact absurd (away.symm.trans within) nofun
    · exact ⟨replies, uproots⟩
  · rintro ⟨replies, uproots⟩
    refine ⟨?_, displaced.mpr ⟨replies, .inr uproots⟩⟩
    cases removes : call.removedLabel? with
    | some label =>
      exact (touches.password_ne_null_iff removes replies ordinary.1 guards).mpr (uproots.not_within ordinary.1 removes)
    | none =>
      have guarded := guards.1
      rw [Store.get_password_of_resolved ordinary.1] at guarded ⊢
      rwa [touches.entry_eq removes uproots.plain]

/-- A call that may protect its operand leaves every password as it is, or a node at its operand. -/
theorem VerbCall.present_of_protects {call : VerbCall} {label : String} (identity : String) (u : Solo)
    (protects : call.protectedLabel? = some label) :
    (∀ name, ((call.program identity none).play u).2.store.entry name = u.store.entry name) ∨
      (IsOrdinary (Path.resolve label u.cwd) ∧
        ((call.program identity none).play u).2.store.get (Key.node (Path.resolve label u.cwd)) ≠ .null) := by
  have named {args : List String} (protects : (if (Operand.ofArgs args).protects then
      some (Operand.ofArgs args).label else none) = some label) : (Operand.ofArgs args).label = label := by
    split at protects
    · exact Option.some.inj protects
    · cases protects
  have unchanged {r : Result × Solo} (refused : Refused u r) (name : String) :
      r.2.store.entry name = u.store.entry name := by rw [refused.asks.store]
  cases call with
  | mkdir args =>
    obtain rfl := named protects
    rcases mkdir_cases args none u with refused | ⟨v, ready, played⟩
    · exact .inl (unchanged refused)
    · refine .inr ⟨ready.ordinary, ?_⟩
      rw [program, played, Solo.store_perform_update, Store.update_parent ready.ordinary.1 ready.notRoot,
        Store.get_node_set ready.ordinary.1]
      decide
  | vim args =>
    obtain rfl := named protects
    rcases vim_cases args none u with refused | ⟨v, w, ready, edited⟩
    · exact .inl (unchanged refused)
    · refine .inr ⟨ready.ordinary, ?_⟩
      rcases edited with played | ⟨text, -, played⟩
      · rw [program, played, store_begun, Store.get_node_set ready.ordinary.1]
        intro null
        cases null
      · rw [program, played, Solo.store_perform_set, Store.get_node_set ready.ordinary.1]
        intro null
        cases null
  | _ => cases protects

end TreeShell
