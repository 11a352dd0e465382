import TreeShell.Proofs.Store.Deletions
import TreeShell.Proofs.Verb.Passwords

/-! # Refused commands

Every verb makes all its checks, and asks all its questions but the editor's, before it writes. So a call that does
not end with the text that announces its success has changed nothing, on any store and whatever was answered; the
verbs that look around never change anything; and an edit that is cancelled writes back what was there
(`VerbCall.refused_changes_nothing`).
-/

namespace TreeShell

open Path (IsResolved isResolved_resolve)
open Verb

/-- Whether a reply is one with which a verb says that it has done what it was asked to. Looking around changes
nothing, so there the replies say nothing of that kind. -/
def VerbCall.Announces : VerbCall → String → Prop
  | .ls _, _ | .file _, _ | .cat _, _ => False
  | .cd label, reply => reply = "Changed directory to '" ++ label ++ "'"
  | .cp source target, reply => reply = "Copied '" ++ source ++ "' to '" ++ target ++ "'"
  | .mv source _, reply => ∃ name, reply = "Moved '" ++ source ++ "' to '" ++ name ++ "'"
  | .mkdir args, reply => ∃ suffix ∈ ["", " (password-protected)"],
      reply = "Directory '" ++ (Operand.ofArgs args).label ++ "' created" ++ suffix
  | .rm args, reply => ∃ kind ∈ ["Removed directory '", "Removed file '"], reply = kind ++ removalLabel args ++ "'"
  | .vim args, reply => reply = "File '" ++ (Operand.ofArgs args).label ++ "' saved." ∨ reply = "vim: editing canceled"
  | .redirect _ _, reply => reply = ""

/-- Writing the text that stands at a path changes nothing. -/
theorem Store.set_of_get {s : Store} {path text : String} (resolved : IsResolved path)
    (stands : s.get (Key.node path) = .text text) : s.set (Key.node path) (.text text) = s :=
  put_of_find (components_node_ne_nil resolved) (.inr trivial) (fun absent => nomatch absent) stands

/-- A file that is stored as a text is looked up as that text. -/
theorem Store.contentOf_node? {s : Store} {path text : String} (notRoot : path ≠ "/")
    (stands : s.get (Key.node path) = .text text) : contentOf (s.node? path) = text := by
  rw [node?, loaded_of_ne_root notRoot, stands]
  rfl

namespace Verb

variable {u : Solo} {elevation : Option Elevation}

/-- A cancelled edit that sets no password leaves a text as it was. -/
theorem vim_cancelled {args : List String} {content : String} {r : Result × Solo}
    (played : (vim args elevation).play u = r) (cancelled : r.1 = .ok "vim: editing canceled")
    (plain : (Operand.ofArgs args).protects = false)
    (stands : u.store.get (Key.node (Path.resolve (Operand.ofArgs args).label u.cwd)) = .text content) :
    r.2.store = u.store ∧ r.2.cwd = u.cwd ∧ r.2.events = u.events := by
  rcases vim_cases args elevation u with refused | ⟨v, w, ready, done | ⟨text, -, done⟩⟩
  · rw [played] at refused
    exact absurd cancelled (refused.not_replied _)
  · obtain rfl := played.symm.trans done
    have enters := ready.enters
    rw [plain, Bool.false_and] at enters
    cases enters
    refine ⟨?_, (cwd_begun ..).trans ready.asks.cwd, (events_begun ..).trans ready.asks.events⟩
    rw [store_begun, Store.contentOf_node? (ne_root_of_node? ready.notDirectory) stands, ready.asks.store]
    exact Store.set_of_get (isResolved_resolve (Operand.ofArgs args).label u.cwd) stands
  · obtain rfl := played.symm.trans done
    exact absurd (Except.ok.inj cancelled) (saved_ne_canceled _)

end Verb

/-- A call announces its success, or has done nothing but ask. -/
theorem VerbCall.asks_or_announces (call : VerbCall) (identity : String) (elevation : Option Elevation) {u : Solo}
    {r : Result × Solo} (played : (call.program identity elevation).play u = r) :
    u.Asks r.2 ∨ ∃ reply, r.1 = .ok reply ∧ call.Announces reply := by
  subst played
  cases call with
  | ls label => exact .inl (ls_asks label elevation u)
  | file label => exact .inl (file_asks label elevation u)
  | cat label => exact .inl (cat_asks label elevation u)
  | cd label =>
    refine (cd_cases identity label elevation u).imp (·.asks) ?_
    rintro ⟨v, -, -, -, done⟩
    exact ⟨_, congrArg (·.1) done, rfl⟩
  | cp source target =>
    refine (cp_cases source target elevation u).imp (·.asks) ?_
    rintro ⟨v, -, done⟩
    exact ⟨_, congrArg (·.1) done, rfl⟩
  | mv source target =>
    refine (mv_cases source target elevation u).imp (·.asks) ?_
    rintro ⟨v, node, -, done⟩
    exact ⟨_, congrArg (·.1) done, _, rfl⟩
  | mkdir args =>
    refine (mkdir_cases args elevation u).imp (·.asks) ?_
    rintro ⟨v, -, done⟩
    refine ⟨_, congrArg (·.1) done, _, ?_, rfl⟩
    split <;> simp
  | rm args =>
    refine (rm_cases args elevation u).imp (·.asks) ?_
    rintro ⟨v, node, -, done⟩
    refine ⟨_, congrArg (·.1) done, _, ?_, rfl⟩
    split <;> simp
  | vim args =>
    refine (vim_cases args elevation u).imp (·.asks) ?_
    rintro ⟨v, w, -, done | ⟨text, -, done⟩⟩
    · exact ⟨_, congrArg (·.1) done, .inr rfl⟩
    · exact ⟨_, congrArg (·.1) done, .inl rfl⟩
  | redirect label text =>
    refine (redirect_cases label text elevation u).imp (·.asks) ?_
    rintro ⟨v, -, done⟩
    exact ⟨_, congrArg (·.1) done, rfl⟩

/-- A call that does not announce its success leaves the store, the working directory and the log as they were, and
so do `ls`, `file` and `cat` in any case, and an edit without `-s` of a file stored as a text that is cancelled. -/
theorem VerbCall.refused_changes_nothing (call : VerbCall) (identity : String) (elevation : Option Elevation)
    (answers : List Answer) {m : Machine} (noFaults : m.world.backend.faults = FaultSchedule.none) :
    let d := (call.program identity elevation).converse answers m
    let unchanged := d.machine.world.backend.store = m.world.backend.store ∧ d.machine.cwd = m.cwd ∧
      d.machine.world.events = m.world.events
    ((¬ ∃ reply, d.result = .ok (.ok reply) ∧ call.Announces reply) → unchanged) ∧
      (∀ label, call = .ls label ∨ call = .file label ∨ call = .cat label → unchanged) ∧
      ∀ args content, call = .vim args → (Operand.ofArgs args).protects = false →
        m.world.backend.store.get (Key.node (Path.resolve (Operand.ofArgs args).label m.cwd)) = .text content →
        d.result = .ok (.ok "vim: editing canceled") → unchanged := by
  obtain ⟨result, store, cwd, events, -⟩ := (call.program identity elevation).converse_eq_play answers noFaults
  dsimp only
  generalize played : (call.program identity elevation).play (m.solo answers) = r at result store cwd events
  rw [result, store, cwd, events]
  have outcome := call.asks_or_announces identity elevation played
  have refused (silent : ¬ ∃ reply, Except.ok (ε := StoreError) r.1 = .ok (.ok reply) ∧ call.Announces reply) :
      (m.solo answers).Asks r.2 := by
    refine outcome.resolve_right ?_
    rintro ⟨reply, replied, announces⟩
    exact silent ⟨reply, congrArg _ replied, announces⟩
  refine ⟨fun silent => ?_, fun label looks => ?_, fun args content edits plain stands cancelled => ?_⟩
  · have asks := refused silent
    exact ⟨asks.store, asks.cwd, asks.events⟩
  · have asks : (m.solo answers).Asks r.2 := by
      refine refused ?_
      rintro ⟨reply, -, announces⟩
      rcases looks with rfl | rfl | rfl <;> exact announces
    exact ⟨asks.store, asks.cwd, asks.events⟩
  · subst edits
    exact vim_cancelled played (Except.ok.inj cancelled) plain stands

/-- A wrong password removes nothing, and an edit that is cancelled after the right one leaves the file. -/
theorem VerbCall.refused_changes_nothing_on_guess :
    let s : Store := ⟨[("shellFS", .mapping [("f", .text "x"), ("__PASSWORDS__", .mapping [("f", .text "pw")])])]⟩
    let m : Machine := ⟨{ backend := { store := s } }, "/"⟩
    let after (call : VerbCall) (answers : List Answer) : Store :=
      ((call.program "alice" none).converse answers m).machine.world.backend.store
    after (.rm ["f"]) [some "guess"] = s ∧ after (.vim ["f"]) [some "pw", none] = s := by
  intro s m after
  constructor
  · obtain ⟨unchanged, -⟩ := (VerbCall.rm ["f"]).refused_changes_nothing "alice" none [some "guess"] (m := m) rfl
    have silent : ¬ Replied (((VerbCall.rm ["f"]).program "alice" none).converse [some "guess"] m).result := by
      decide +kernel
    exact (unchanged fun ⟨reply, replied, _⟩ => silent ⟨reply, replied⟩).1
  · obtain ⟨-, -, unchanged⟩ := (VerbCall.vim ["f"]).refused_changes_nothing "alice" none [some "pw", none] (m := m) rfl
    exact (unchanged ["f"] "x" rfl (by decide) (by decide +kernel) (by decide +kernel)).1

end TreeShell
