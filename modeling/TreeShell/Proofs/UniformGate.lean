import TreeShell.Proofs.Verb.Elevated
import TreeShell.Proofs.Verb.Gate

/-! # A uniform and transparent gate

Whatever verb asks for the password of a path, a wrong answer ends it in the same way with nothing done, and
right ones take it exactly where it would have come without a password, or with elevation
(`VerbCall.gate_uniform`).
-/

namespace TreeShell

open Path (IsResolved isResolved_resolve)
open Verb

/-- The machine on another store. -/
def Machine.withStore (m : Machine) (s : Store) : Machine :=
  { m with world := { m.world with backend := { m.world.backend with store := s } } }

/-- The exchanges that were not about passwords. -/
def otherExchanges (asked : List (Prompt × Answer)) : List (Prompt × Answer) :=
  asked.filter fun q => !q.1.asksPassword

theorem map_fst_exchanges (prompts : List Prompt) (answers : List Answer) :
    (exchanges prompts answers).map (·.1) = prompts := by
  induction prompts generalizing answers with
  | nil => rfl
  | cons prompt rest ih => rw [exchanges, List.map_cons, ih]

section

variable {operands : List (String × String)} {u u' : Solo} {t : Store} {p p' : Program Result}

/-- The exchanges of a session that was only asked for passwords. -/
theorem Solo.Unlocked.passwords {v : Solo} (unlocked : u.Unlocked operands v) (fresh : u.asked = []) :
    ∀ q ∈ v.asked, q.1.asksPassword = true ∧ ∃ op ∈ operands, ∃ password,
      u.store.password? op.2 = some password ∧ q = (passwordPrompt op.1, some password) := by
  obtain ⟨given, asked, each⟩ := unlocked.right
  rw [asked, fresh, List.nil_append]
  intro q member
  obtain ⟨op, operand, password, found, rfl⟩ := each q member
  exact ⟨Prompt.asksPassword_passwordPrompt _, op, operand, password, found, rfl⟩

/-- A run that was not barred and the run that it conforms to, on the answers that were not about passwords. -/
structure Follows (operands : List (String × String)) (u u' : Solo) (r r' : Result × Solo) : Prop where
  right : ∀ q ∈ r.2.asked, q.1.asksPassword = true → ∃ op ∈ operands, ∃ password,
    u.store.password? op.2 = some password ∧ q = (passwordPrompt op.1, some password)
  result : r'.1 = r.1
  calls : ∃ calls, r.2.store = u.store.after calls ∧ r'.2.store = u'.store.after calls
  cwd : r'.2.cwd = r.2.cwd
  asked : r'.2.asked = otherExchanges r.2.asked

/-- A program that conforms to another is barred, or is followed by it. -/
theorem Conforms.follows (conforms : Conforms operands u t p p') (u' : Solo) (fresh : u.asked = [])
    (fresh' : u'.asked = []) (store : u'.store = t) (cwd : u'.cwd = u.cwd)
    (answers : u'.answers = (otherExchanges (p.play u).2.asked).map (·.2)) :
    (∃ w, u.Barred operands w ∧ p.play u = (.error .wrongPassword, w)) ∨
      Follows operands u u' (p.play u) (p'.play u') := by
  rcases conforms u (.refl operands u) with barred | ⟨w, unlocked, follows⟩
  · exact .inl barred
  · obtain ⟨result, abreast⟩ := follows { u' with answers := w.answers } store cwd rfl
    obtain ⟨calls, here, there⟩ := abreast.calls
    obtain ⟨shown, asked, asked', others⟩ := abreast.asked
    have passwords := unlocked.passwords fresh
    have rest : otherExchanges (p.play u).2.asked = shown := by
      have before : otherExchanges w.asked = [] :=
        List.filter_eq_nil_iff.mpr fun q member => by simp [(passwords q member).1]
      have after : otherExchanges shown = shown :=
        List.filter_eq_self.mpr fun q member => by simp [others q member]
      rw [asked, otherExchanges, List.filter_append, ← otherExchanges, ← otherExchanges, before, after, List.nil_append]
    obtain ⟨sameResult, sameStore, sameCwd, sameAsked⟩ := p'.play_given { u' with answers := w.answers } asked'
    have again : ({ u' with answers := shown.map (·.2) } : Solo) = u' := by
      rw [← rest, ← answers]
    dsimp only at sameResult sameStore sameCwd sameAsked
    rw [again] at sameResult sameStore sameCwd sameAsked
    refine .inr ⟨fun q member isPassword => ?_, sameResult.trans result.symm, ⟨calls, ?_, sameStore.trans there⟩,
      sameCwd.trans abreast.cwd.symm, ?_⟩
    · rw [asked] at member
      rcases List.mem_append.mp member with before | after
      · exact (passwords q before).2
      · exact absurd ((others q after).symm.trans isPassword) nofun
    · rw [here, unlocked.asks.store]
    · rw [sameAsked, asked', rest, fresh', List.nil_append]

/-- A right answer for every password that is asked for is never wrong. -/
theorem Solo.Barred.not_right {v : Solo} (barred : u.Barred operands v)
    (right : ∀ op ∈ operands, ∀ q ∈ v.asked, q.1 = passwordPrompt op.1 → q.2 = u.store.password? op.2) : False := by
  obtain ⟨w, -, op, operand, password, answer, found, wrong, asked⟩ := barred.wrong
  have last : (passwordPrompt op.1, answer) ∈ v.asked := by
    rw [asked]
    exact List.mem_append_right _ (List.mem_singleton_self _)
  exact wrong ((right op operand _ last rfl).trans found)

/-- The passwords that a barred session was asked for are those of operands, the last one was answered wrong,
and all others right. -/
theorem Solo.Barred.passwords {v : Solo} (barred : u.Barred operands v) (fresh : u.asked = []) :
    ∀ q ∈ v.asked, ∃ op ∈ operands, ∃ password,
      u.store.password? op.2 = some password ∧ q.1 = passwordPrompt op.1 := by
  obtain ⟨w, unlocked, op, operand, password, answer, found, -, asked⟩ := barred.wrong
  rw [asked]
  intro q member
  rcases List.mem_append.mp member with before | last
  · obtain ⟨-, op, operand, password, found, same⟩ := unlocked.passwords fresh q before
    exact ⟨op, operand, password, found, congrArg Prod.fst same⟩
  · rw [List.mem_singleton.mp last]
    exact ⟨op, operand, password, found, rfl⟩

end

namespace VerbCall

variable {call : VerbCall} {m : Machine}

theorem text_wrongPassword (call : VerbCall) : call.text (.error .wrongPassword) = call.name ++ ": incorrect password" := by
  rw [text, Refusal.message, String.append_assoc]
  rfl

/-- The dialogue of a call that was given every password, and its dialogue with free passage on the answers
that were not about passwords. -/
theorem dialogues_follow (identity : String) {answers : List Answer} {t : Store} {elevation : Option Elevation}
    (noFaults : m.world.backend.faults = FaultSchedule.none) (gated : call.IsGated)
    (passage : Passage (call.operands m.cwd) m.world.backend.store t elevation)
    (arrives : ∀ source target, call = .mv source target →
      Key.isMetadata (arrival m.world.backend.store m.cwd source target) = false)
    (onlyPasses : elevation.isSome = true → call.OnlyPasses m.cwd)
    (right : ∀ op ∈ call.operands m.cwd, ∀ q ∈ exchanges ((call.program identity none).converse answers m).prompts answers,
      q.1 = passwordPrompt op.1 → q.2 = m.world.backend.store.password? op.2) :
    let d := (call.program identity none).converse answers m
    let rest := otherExchanges (exchanges d.prompts answers)
    let d' := (call.program identity elevation).converse (rest.map (·.2)) (m.withStore t)
    d'.result = d.result ∧ d'.prompts = rest.map (·.1) ∧ d'.machine.cwd = d.machine.cwd ∧
      ∃ calls, d.machine.world.backend.store = m.world.backend.store.after calls ∧
        d'.machine.world.backend.store = t.after calls := by
  obtain ⟨result, store, cwd, -, asked⟩ := (call.program identity none).converse_eq_play answers noFaults
  rw [← asked] at right
  dsimp only
  rw [← asked]
  obtain ⟨result', store', cwd', -, asked'⟩ := (call.program identity elevation).converse_eq_play
    ((otherExchanges ((call.program identity none).play (m.solo answers)).2.asked).map (·.2)) (m := m.withStore t) noFaults
  have conforms := call.conforms identity (u := m.solo answers) gated passage arrives onlyPasses
  rcases conforms.follows ((m.withStore t).solo _) rfl rfl rfl rfl rfl with ⟨w, barred, played⟩ | follows
  · rw [played] at right
    exact (barred.not_right right).elim
  · obtain ⟨calls, here, there⟩ := follows.calls
    have prompts := congrArg (List.map (·.1)) asked'
    rw [map_fst_exchanges, follows.asked] at prompts
    exact ⟨by rw [result', result, follows.result], prompts.symm, by rw [cwd', cwd, follows.cwd], calls,
      store.trans here, store'.trans there⟩

/-- The gate is uniform: a call that asks for a password asks for that of an operand, and a wrong answer ends
it with one refusal and nothing done. It is transparent: a call that is given every password ends as it would
without those passwords, and as it would with elevation; and with elevation it asks for none. -/
theorem gate_uniform (call : VerbCall) (identity : String) (answers : List Answer) {m : Machine}
    (noFaults : m.world.backend.faults = FaultSchedule.none) (gated : call.IsGated)
    (outside : ∀ op ∈ call.operands m.cwd, Key.isMetadata op.2 = false)
    (arrives : ∀ source target, call = .mv source target →
      Key.isMetadata (arrival m.world.backend.store m.cwd source target) = false) :
    let s := m.world.backend.store
    let operands := call.operands m.cwd
    let d := (call.program identity none).converse answers m
    let asked := exchanges d.prompts answers
    let rest := otherExchanges asked
    (∀ q ∈ asked, q.1.asksPassword = true → ∃ op ∈ operands, ∃ password,
      s.password? op.2 = some password ∧ q.1 = passwordPrompt op.1 ∧
        (q.2 ≠ some password → d.result.map call.text = .ok (call.name ++ ": incorrect password") ∧
          d.machine.world.backend.store = s ∧ d.machine.cwd = m.cwd)) ∧
    ((∀ op ∈ operands, ∀ q ∈ asked, q.1 = passwordPrompt op.1 → q.2 = s.password? op.2) →
      (let bare := s.withoutPasswords (operands.map (·.2))
        let d' := (call.program identity none).converse (rest.map (·.2)) (m.withStore bare)
        d'.result = d.result ∧ d'.prompts = rest.map (·.1) ∧ d'.machine.cwd = d.machine.cwd ∧
          ∀ place, (∀ op ∈ operands, ¬ Key.components (Key.password op.2) <+: place) →
            d'.machine.world.backend.store.leafAt place = d.machine.world.backend.store.leafAt place) ∧
      (∀ e, call.OnlyPasses m.cwd →
        let d' := (call.program identity (some e)).converse (rest.map (·.2)) m
        d'.result = d.result ∧ d'.prompts = rest.map (·.1) ∧ d'.machine.cwd = d.machine.cwd ∧
          d'.machine.world.backend.store = d.machine.world.backend.store)) ∧
    ∀ e answers, ∀ prompt ∈ ((call.program identity (some e)).converse answers m).prompts,
      prompt.asksPassword = false := by
  have resolved : ∀ path ∈ (call.operands m.cwd).map (·.2), IsResolved path := by
    intro path member
    obtain ⟨op, operand, rfl⟩ := List.mem_map.mp member
    exact isResolved_of_mem_operands operand
  have unprotected : Passage (call.operands m.cwd) m.world.backend.store
      (m.world.backend.store.withoutPasswords ((call.operands m.cwd).map (·.2))) none :=
    ⟨Store.sameFiles_withoutPasswords resolved _, outside,
      fun op operand => .inr (Store.password?_withoutPasswords resolved (List.mem_map_of_mem operand) _)⟩
  have elevated (e : Elevation) : Passage (call.operands m.cwd) m.world.backend.store m.world.backend.store (some e) :=
    ⟨.refl _, outside, fun _ _ => .inl rfl⟩
  refine ⟨fun q shown isPassword => ?_, fun right => ⟨?_, fun e onlyPasses => ?_⟩, fun e others prompt shown => ?_⟩
  · obtain ⟨result, store, cwd, -, asked⟩ := (call.program identity none).converse_eq_play answers noFaults
    have conforms := call.conforms identity (u := m.solo answers) gated unprotected arrives nofun
    rw [← asked] at shown
    rcases conforms.follows ((m.withStore _).solo _) rfl rfl rfl rfl rfl with ⟨w, barred, played⟩ | follows
    · rw [played] at result store cwd shown
      obtain ⟨op, operand, password, found, same⟩ := barred.passwords rfl q shown
      exact ⟨op, operand, password, found, same, fun _ =>
        ⟨by rw [result, ← call.text_wrongPassword]; rfl, store.trans barred.asks.store, cwd.trans barred.asks.cwd⟩⟩
    · obtain ⟨op, operand, password, found, rfl⟩ := follows.right q shown isPassword
      exact ⟨op, operand, password, found, rfl, fun wrong => absurd rfl wrong⟩
  · obtain ⟨result, prompts, cwd, calls, here, there⟩ :=
      call.dialogues_follow identity noFaults gated unprotected arrives nofun right
    refine ⟨result, prompts, cwd, fun place apart => ?_⟩
    rw [here, there]
    refine Store.leafAt_after_congr (Store.leafAt_withoutPasswords resolved (fun path member => ?_) _) calls
    obtain ⟨op, operand, rfl⟩ := List.mem_map.mp member
    exact apart op operand
  · obtain ⟨result, prompts, cwd, calls, here, there⟩ :=
      call.dialogues_follow identity noFaults gated (elevated e) arrives (fun _ => onlyPasses) right
    exact ⟨result, prompts, cwd, there.trans here.symm⟩
  · exact (call.neverAsks identity e).of_mem_prompts others m shown

/-- A copy from one protected file to another is refused at a wrong second password, and with both right ones
is the copy that elevation makes. -/
theorem gate_uniform_on_copy :
    let s : Store := ⟨[("shellFS", .mapping [("a", .text "x"), ("b", .text "y"),
      ("__PASSWORDS__", .mapping [("a", .text "one"), ("b", .text "two")])])]⟩
    let m : Machine := ⟨{ backend := { store := s } }, "/"⟩
    let after (elevation : Option Elevation) (answers : List Answer) : Store :=
      (((VerbCall.cp "/a" "/b").program "alice" elevation).converse answers m).machine.world.backend.store
    after none [some "one", some "guess"] = s ∧ ∀ e, after (some e) [] = after none [some "one", some "two"] := by
  intro s m after
  have outside : ∀ op ∈ (VerbCall.cp "/a" "/b").operands "/", Key.isMetadata op.2 = false := by decide +kernel
  constructor
  · obtain ⟨uniform, -, -⟩ := (VerbCall.cp "/a" "/b").gate_uniform "alice" [some "one", some "guess"] (m := m) rfl
      trivial outside nofun
    obtain ⟨op, operand, password, found, -, ends⟩ :=
      uniform (passwordPrompt "/b", some "guess") (by decide +kernel) (by decide +kernel)
    have guessed : ∀ op ∈ (VerbCall.cp "/a" "/b").operands "/", s.password? op.2 ≠ some "guess" := by decide +kernel
    have wrong : some "guess" ≠ some password := fun same => guessed op operand (found.trans same.symm)
    exact (ends wrong).2.1
  · obtain ⟨-, transparent, -⟩ := (VerbCall.cp "/a" "/b").gate_uniform "alice" [some "one", some "two"] (m := m) rfl
      trivial outside nofun
    obtain ⟨-, elevated⟩ := transparent (by decide +kernel)
    have others : otherExchanges (exchanges (((VerbCall.cp "/a" "/b").program "alice" none).converse
        [some "one", some "two"] m).prompts [some "one", some "two"]) = [] := by
      decide +kernel
    intro e
    obtain ⟨-, -, -, store⟩ := elevated e trivial
    rw [others, List.map_nil] at store
    exact store

end VerbCall

end TreeShell
