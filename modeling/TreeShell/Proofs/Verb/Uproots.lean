import TreeShell.Proofs.Store.Presence
import TreeShell.Proofs.Store.SoundWrites
import TreeShell.Proofs.Verb.Passwords

/-! # Nodes that a verb takes from their paths

A verb that removes its operand takes along all that is in it. Other nodes it uproots: a copy or a move does
where it replaces a directory by a value that lacks what was in it, and a removal or a move where it takes the
last thing out of a directory. `VerbCall.displaces` says of every call that no other node is gone after it. Every
call keeps the store sound (`VerbCall.sound`), so the next one finds it as these laws ask for.
-/

namespace TreeShell

open Key (IsOrdinary)
open Path (IsResolved isResolved_resolve ofSegments)
open Verb

/-- Whether a call that removes its operand takes a path along. -/
def VerbCall.TakesAlong (call : VerbCall) (cwd path : String) : Prop :=
  ∃ label ∈ call.removedLabel?, Path.isWithin path (Path.resolve label cwd) = true

/-- Whether a call takes the node from a path, and not by removing its operand along with all passwords: it
writes a value over a directory that lacks the node, or removes all that a directory holds. -/
def VerbCall.Uproots (s : Store) (cwd path : String) : VerbCall → Prop
  | .cp source target => (s.get (Key.node (Path.resolve source cwd))).Uncovers (Path.resolve target cwd) path
  | .rm args => s.Empties (Path.resolve (removalLabel args) cwd) path
  | .mv source target =>
    Path.isWithin path (Path.resolve source cwd) = false ∧
      ((s.get (Key.node (Path.resolve source cwd))).Uncovers (arrival s cwd source target) path ∨
        (s.set (Key.node (arrival s cwd source target)) (s.get (Key.node (Path.resolve source cwd)))).Empties
          (Path.resolve source cwd) path)
  | _ => False

/-! ## Stores stay sound -/

namespace Store

variable {s : Store} {path : String}

/-- The session after a new password is as sound as before. -/
theorem Sound.enters {u v : Solo} {label : String} {protects : Bool} (sound : u.store.Sound)
    (resolved : IsResolved path) (enters : u.Enters label path protects v) : v.store.Sound := by
  cases enters with
  | unprotected => exact sound
  | entered => exact sound.set_password resolved _

theorem Sound.removed {u : Solo} {node : Node} {recursive : Bool} {reason : Option ElevationReason}
    (sound : u.store.Sound) (ordinary : IsOrdinary path) : (removed u path node recursive reason).store.Sound :=
  (sound.remove_node ordinary).removals _

end Store

namespace Verb

variable {u v w : Solo} {source target label : String} {args : List String}

theorem CopyReady.source_ordinary (ready : CopyReady u v source target false) :
    IsOrdinary (Path.resolve source u.cwd) :=
  ⟨isResolved_resolve .., ready.sourceNotRoot, ready.sourceCleared.outside⟩

theorem RemoveReady.ordinary {node : Node} (ready : RemoveReady u v args false node) :
    IsOrdinary (Path.resolve (removalLabel args) u.cwd) :=
  ⟨isResolved_resolve .., ready.notRoot, ready.outside⟩

theorem sound_of_asks (sound : u.store.Sound) (asks : u.Asks v) : v.store.Sound :=
  asks.store ▸ sound

end Verb

/-- A call without elevation keeps a store sound. -/
theorem VerbCall.sound (call : VerbCall) (identity : String) {u : Solo} (sound : u.store.Sound) :
    ((call.program identity none).play u).2.store.Sound := by
  cases call with
  | ls label => exact sound_of_asks sound (ls_asks label none u)
  | file label => exact sound_of_asks sound (file_asks label none u)
  | cat label => exact sound_of_asks sound (cat_asks label none u)
  | cd label =>
    rcases cd_cases identity label none u with refused | ⟨v, asks, -, -, played⟩
    · exact sound_of_asks sound refused.asks
    · rw [program, played]
      exact (sound_of_asks sound asks).set_cwd identity _
  | cp source target =>
    rcases cp_cases source target none u with refused | ⟨v, ready, played⟩
    · exact sound_of_asks sound refused.asks
    · rw [program, played]
      exact (sound_of_asks sound ready.asks).set_node ready.target_ordinary (sound.tidy ready.source_ordinary)
  | mv source target =>
    rcases mv_cases source target none u with refused | ⟨v, node, ready, played⟩
    · exact sound_of_asks sound refused.asks
    · rw [program, played]
      have written := (sound_of_asks sound ready.asks).set_node ready.arrival_ordinary (sound.tidy ready.source_ordinary)
      exact Store.Sound.removed written ready.source_ordinary
  | rm args =>
    rcases rm_cases args none u with refused | ⟨v, node, ready, played⟩
    · exact sound_of_asks sound refused.asks
    · rw [program, played]
      exact (sound_of_asks sound ready.asks).removed ready.ordinary
  | mkdir args =>
    rcases mkdir_cases args none u with refused | ⟨v, ready, played⟩
    · exact sound_of_asks sound refused.asks
    · rw [program, played, Solo.store_perform_update, Store.update_parent ready.ordinary.1 ready.notRoot]
      exact (sound.enters ready.ordinary.1 ready.enters).set_node ready.ordinary Store.tidy_newDirectory
  | vim args =>
    rcases vim_cases args none u with refused | ⟨v, w, ready, edited⟩
    · exact sound_of_asks sound refused.asks
    · have entered := (sound_of_asks sound ready.asks).enters ready.ordinary.1 ready.enters
      have begins : (begun u w (Operand.ofArgs args).label).store.Sound := by
        rw [store_begun]
        exact entered.set_node ready.ordinary (Store.tidy_text _)
      rcases edited with played | ⟨text, -, played⟩
      · rw [program, played]
        exact begins
      · rw [program, played]
        exact begins.set_node ready.ordinary (Store.tidy_text _)
  | redirect label text =>
    rcases redirect_cases label text none u with refused | ⟨v, ready, played⟩
    · exact sound_of_asks sound refused.asks
    · rw [program, played]
      exact (sound_of_asks sound ready.asks).set_node ready.ordinary (Store.tidy_text text)

/-! ## What a call displaces -/

namespace Store

variable {s : Store} {path target removed : String} {value : Value}

/-- Where there is no directory a value that is written uncovers nothing that was there. -/
theorem not_uncovers (bare : (s.get (Key.node target)).isMapping = false) (there : s.get (Key.node path) ≠ .null) :
    ¬ value.Uncovers target path := by
  rintro ⟨rest, below, same, -⟩
  obtain ⟨name, rest, rfl⟩ := List.exists_cons_of_ne_nil below
  rw [get, same, find_append, ← get, Value.find_cons_of_not_mapping bare] at there
  exact absurd rfl there

/-- There a write leaves every node in place. -/
theorem get_set_node_ne_null {t : Store} (resolved : IsResolved path) (targetResolved : IsResolved target)
    (settled : value.Settled) (filled : value ≠ .null) (bare : (s.get (Key.node target)).isMapping = false)
    (there : s.get (Key.node path) ≠ .null) (still : t.get (Key.node path) ≠ .null) :
    (t.set (Key.node target) value).get (Key.node path) ≠ .null :=
  (get_set_node_eq_null_iff resolved targetResolved settled filled still).not.mpr (not_uncovers bare there)

theorem not_mapping_of_not_directory (notRoot : path ≠ "/")
    (notDirectory : ∀ children, s.node? path ≠ some (.directory children)) :
    (s.get (Key.node path)).isMapping = false := by
  rw [node?, Verb.loaded_of_ne_root notRoot] at notDirectory
  rcases (s.get (Key.node path)).mapping_or_scalar with ⟨entries, found⟩ | scalar
  · rw [found, Node.ofValue?_mapping] at notDirectory
    exact absurd rfl (notDirectory _)
  · exact scalar

/-- A directory that is emptied lies above what is removed. -/
theorem Empties.not_within (empties : s.Empties removed path) (resolved : IsResolved path)
    (removedResolved : IsResolved removed) : Path.isWithin path removed = false := by
  obtain ⟨within, proper, -⟩ := empties
  obtain ⟨segs, names, rfl⟩ := resolved.exists_names
  obtain ⟨others, otherNames, rfl⟩ := removedResolved.exists_names
  rw [Path.isWithin_ofSegments otherNames names] at within
  rw [← Bool.not_eq_true, Path.isWithin_ofSegments names otherNames]
  intro below
  exact proper (congrArg ofSegments (below.eq_of_length (Nat.le_antisymm below.length_le within.length_le)))

end Store

namespace VerbCall.Uproots

variable {call : VerbCall} {s : Store} {cwd label path : String}

/-- What a call uproots it does not remove along with its operand. -/
theorem not_within (uproots : call.Uproots s cwd path) (resolved : IsResolved path)
    (removes : call.removedLabel? = some label) : Path.isWithin path (Path.resolve label cwd) = false := by
  cases call with
  | rm args =>
    obtain rfl : removalLabel args = label := Option.some.inj removes
    exact Store.Empties.not_within uproots resolved (isResolved_resolve ..)
  | mv source target =>
    obtain rfl : source = label := Option.some.inj removes
    exact uproots.1
  | _ => cases removes

/-- A call that uproots something protects nothing. -/
theorem plain (uproots : call.Uproots s cwd path) : call.protectedLabel? = none := by
  cases call with
  | cp source target | rm args | mv source target => rfl
  | _ => exact uproots.elim

end VerbCall.Uproots

/-- Whether the nodes that a call takes from their paths are just those that it removes or uproots. -/
def Displaces (call : VerbCall) (u : Solo) (r : Result × Solo) : Prop :=
  ∀ path, IsOrdinary path → u.store.get (Key.node path) ≠ .null →
    (r.2.store.get (Key.node path) = .null ↔
      (∃ reply, r.1 = .ok reply) ∧ (call.TakesAlong u.cwd path ∨ call.Uproots u.store u.cwd path))

namespace Verb

variable {call : VerbCall} {u v w : Solo} {r : Result × Solo} {path : String}

/-- A call that leaves every node in place displaces nothing. -/
theorem displaces_of_present
    (spares : ∀ path, ¬ ((∃ reply, r.1 = .ok reply) ∧ (call.TakesAlong u.cwd path ∨ call.Uproots u.store u.cwd path)))
    (stays : ∀ path, IsOrdinary path → u.store.get (Key.node path) ≠ .null → r.2.store.get (Key.node path) ≠ .null) :
    Displaces call u r := by
  intro path ordinary there
  constructor
  · exact fun gone => absurd gone (stays path ordinary there)
  · exact fun displaced => absurd displaced (spares path)

theorem displaces_of_refused (refused : Refused u r) : Displaces call u r := by
  refine displaces_of_present (fun path => ?_) fun path _ there => by rwa [refused.asks.store]
  rintro ⟨⟨reply, replied⟩, -⟩
  obtain ⟨refusal, refusing⟩ := refused.refusal
  exact absurd (refusing.symm.trans replied) nofun

theorem not_takesAlong (keeps : call.removedLabel? = none) (cwd path : String) : ¬ call.TakesAlong cwd path := by
  rintro ⟨label, removes, -⟩
  rw [keeps] at removes
  cases removes

/-- A call that neither removes nor uproots anything. -/
theorem displaces_of_stays (keeps : call.removedLabel? = none) (spares : ∀ path, ¬ call.Uproots u.store u.cwd path)
    (stays : ∀ path, IsOrdinary path → u.store.get (Key.node path) ≠ .null → r.2.store.get (Key.node path) ≠ .null) :
    Displaces call u r :=
  displaces_of_present (fun path both => both.2.elim (not_takesAlong keeps _ path) (spares path)) stays

theorem displaces_of_asks (keeps : call.removedLabel? = none) (spares : ∀ path, ¬ call.Uproots u.store u.cwd path)
    (asks : u.Asks r.2) : Displaces call u r :=
  displaces_of_stays keeps spares fun path _ there => by rwa [asks.store]

/-- A new password moves no ordinary node. -/
theorem get_node_enters {label target : String} {protects : Bool} (enters : u.Enters label target protects v)
    (resolved : IsResolved target) (ordinary : IsOrdinary path) :
    v.store.get (Key.node path) = u.store.get (Key.node path) := by
  cases enters with
  | unprotected => rfl
  | entered => exact Store.find_put_apart (Key.apart_password_node resolved ordinary) _ _

/-- After a removal an ordinary node is what the removal of the path alone leaves. -/
theorem get_node_removed {target : String} {node : Node} {recursive : Bool} {reason : Option ElevationReason}
    (ordinary : IsOrdinary path) (u : Solo) : (removed u target node recursive reason).store.get (Key.node path) =
      (u.store.remove (Key.node target)).get (Key.node path) := by
  rw [removed, Solo.store_record, Solo.store_perform_update, Store.get_node_update_passwords ordinary,
    Solo.store_perform_remove]

theorem cd_displaces (identity label : String) (u : Solo) :
    Displaces (.cd label) u ((cd identity label none).play u) := by
  rcases cd_cases identity label none u with refused | ⟨v, asks, -, -, played⟩
  · exact displaces_of_refused refused
  · refine displaces_of_stays rfl (fun _ => id) fun path ordinary there => ?_
    rw [← asks.store] at there
    rw [played, Solo.store_perform_set, Store.get_node_set_cwd ordinary.1]
    exact there

theorem cp_displaces (source target : String) (u : Solo) (sound : u.store.Sound) :
    Displaces (.cp source target) u ((cp source target none).play u) := by
  rcases cp_cases source target none u with refused | ⟨v, ready, played⟩
  · exact displaces_of_refused refused
  · intro path ordinary there
    rw [played, Solo.store_perform_set, ready.asks.store,
      Store.get_set_node_eq_null_iff ordinary.1 ready.target_ordinary.1 (sound.tidy ready.source_ordinary).settled
        ready.present there]
    constructor
    · exact fun uncovers => ⟨⟨_, rfl⟩, .inr uncovers⟩
    · exact fun displaced => displaced.2.resolve_left (not_takesAlong rfl _ _)

theorem redirect_displaces (label text : String) (u : Solo) :
    Displaces (.redirect label text) u ((redirect label text none).play u) := by
  rcases redirect_cases label text none u with refused | ⟨v, ready, played⟩
  · exact displaces_of_refused refused
  · refine displaces_of_stays rfl (fun _ => id) fun path ordinary there => ?_
    have bare := Store.not_mapping_of_not_directory ready.ordinary.2.1 ready.notDirectory
    rw [played, Solo.store_perform_set, ready.asks.store]
    exact Store.get_set_node_ne_null ordinary.1 ready.ordinary.1 (Store.tidy_text text).settled nofun bare there there

theorem mkdir_displaces (args : List String) (u : Solo) : Displaces (.mkdir args) u ((mkdir args none).play u) := by
  rcases mkdir_cases args none u with refused | ⟨v, ready, played⟩
  · exact displaces_of_refused refused
  · refine displaces_of_stays rfl (fun _ => id) fun path ordinary there => ?_
    obtain ⟨siblings, parent, free⟩ := ready.parent
    have bare : (u.store.get (Key.node (Path.resolve (Operand.ofArgs args).label u.cwd))).isMapping = false := by
      rw [Store.get_node_of_free ready.ordinary.1 ready.notRoot parent free]
      rfl
    have before := get_node_enters ready.enters ready.ordinary.1 ordinary
    rw [played, Solo.store_perform_update, Store.update_parent ready.ordinary.1 ready.notRoot]
    exact Store.get_set_node_ne_null ordinary.1 ready.ordinary.1 Store.tidy_newDirectory.settled nofun bare there
      (before ▸ there)

theorem vim_displaces (args : List String) (u : Solo) : Displaces (.vim args) u ((vim args none).play u) := by
  rcases vim_cases args none u with refused | ⟨v, w, ready, edited⟩
  · exact displaces_of_refused refused
  · refine displaces_of_stays rfl (fun _ => id) fun path ordinary there => ?_
    have bare := Store.not_mapping_of_not_directory ready.ordinary.2.1 ready.notDirectory
    have before := get_node_enters ready.enters ready.ordinary.1 ordinary
    rw [ready.asks.store] at before
    -- both writes are at the operand, and neither uncovers anything
    have stays (s : Store) (text : String) (there' : s.get (Key.node path) ≠ .null) :
        (s.set (Key.node (Path.resolve (Operand.ofArgs args).label u.cwd)) (.text text)).get (Key.node path) ≠ .null :=
      Store.get_set_node_ne_null ordinary.1 ready.ordinary.1 (Store.tidy_text text).settled nofun bare there there'
    have begins := stays w.store (contentOf (u.store.node? (Path.resolve (Operand.ofArgs args).label u.cwd))) (before ▸ there)
    rw [← store_begun] at begins
    rcases edited with played | ⟨text, -, played⟩
    · rw [played]
      exact begins
    · rw [played, Solo.store_perform_set]
      exact stays _ text begins

theorem rm_displaces (args : List String) (u : Solo) (sound : u.store.Sound) :
    Displaces (.rm args) u ((rm args none).play u) := by
  rcases rm_cases args none u with refused | ⟨v, node, ready, played⟩
  · exact displaces_of_refused refused
  · intro path ordinary there
    rw [played, get_node_removed ordinary, ready.asks.store,
      sound.get_remove_node_eq_null_iff ordinary.1 ready.ordinary.1]
    constructor
    · rintro (gone | within | empties)
      · exact absurd gone there
      · exact ⟨⟨_, rfl⟩, .inl ⟨_, rfl, within⟩⟩
      · exact ⟨⟨_, rfl⟩, .inr empties⟩
    · rintro ⟨-, ⟨label, removes, within⟩ | empties⟩
      · obtain rfl : removalLabel args = label := Option.some.inj removes
        exact .inr (.inl within)
      · exact .inr (.inr empties)

theorem mv_displaces (source target : String) (u : Solo) (sound : u.store.Sound) :
    Displaces (.mv source target) u ((mv source target none).play u) := by
  rcases mv_cases source target none u with refused | ⟨v, node, ready, played⟩
  · exact displaces_of_refused refused
  · intro path ordinary there
    have tidy := sound.tidy ready.source_ordinary
    have written := sound.set_node ready.arrival_ordinary tidy
    have left := written.get_remove_node_eq_null_iff ordinary.1 ready.source_ordinary.1
    rw [played, get_node_removed ordinary, Solo.store_perform_set, ready.asks.store, left,
      Store.get_set_node_eq_null_iff ordinary.1 ready.arrival_ordinary.1 tidy.settled ready.present there]
    constructor
    · intro gone
      refine ⟨⟨_, rfl⟩, ?_⟩
      by_cases within : Path.isWithin path (Path.resolve source u.cwd) = true
      · exact .inl ⟨source, rfl, within⟩
      · refine .inr ⟨Bool.not_eq_true _ ▸ within, ?_⟩
        exact gone.imp_right fun later => later.resolve_left within
    · rintro ⟨-, ⟨label, removes, within⟩ | ⟨-, uproots⟩⟩
      · obtain rfl : source = label := Option.some.inj removes
        exact .inr (.inl within)
      · exact uproots.imp_right .inr

end Verb

/-- After a call the nodes that it removes or uproots are gone from their paths, and no others. -/
theorem VerbCall.displaces (call : VerbCall) (identity : String) {u : Solo} (sound : u.store.Sound) :
    Displaces call u ((call.program identity none).play u) := by
  cases call with
  | ls label => exact displaces_of_asks rfl (fun _ => id) (ls_asks label none u)
  | file label => exact displaces_of_asks rfl (fun _ => id) (file_asks label none u)
  | cat label => exact displaces_of_asks rfl (fun _ => id) (cat_asks label none u)
  | cd label => exact cd_displaces identity label u
  | cp source target => exact cp_displaces source target u sound
  | mv source target => exact mv_displaces source target u sound
  | mkdir args => exact mkdir_displaces args u
  | rm args => exact rm_displaces args u sound
  | vim args => exact vim_displaces args u
  | redirect label text => exact redirect_displaces label text u

end TreeShell
