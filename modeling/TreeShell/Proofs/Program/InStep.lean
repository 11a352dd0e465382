import TreeShell.Proofs.Program.Solo
import TreeShell.Proofs.Store.Refinement

/-! # Programs that act in step

Two programs act in step if from any two sessions with the same working directory and the same answers to
come they make the same calls on the store, enter the same directories, and show the same prompts, none of
which asks for a password; only their logs may differ. They read nothing, so it does not matter what the
two stores hold. How a program plays is settled by the answers that it uses up (`Program.play_given`).
-/

namespace TreeShell

/-- Whether a prompt asks for the password of a path. -/
def Prompt.asksPassword (p : Prompt) : Bool :=
  p.kind = .secret && Text.startsWith p.label "Password for '"

/-- Whether two sessions came from two others by the same calls, changes of the working directory and
prompts with the same answers, none for a password. -/
structure Solo.Abreast (u u' v v' : Solo) : Prop where
  calls : ∃ calls, v.store = u.store.after calls ∧ v'.store = u'.store.after calls
  cwd : v.cwd = v'.cwd
  answers : v.answers = v'.answers
  asked : ∃ shown, v.asked = u.asked ++ shown ∧ v'.asked = u'.asked ++ shown ∧
    ∀ q ∈ shown, q.1.asksPassword = false

namespace Solo.Abreast

variable {u u' v v' : Solo}

theorem start (cwd : u.cwd = u'.cwd) (answers : u.answers = u'.answers) : Abreast u u' u u' :=
  ⟨⟨[], rfl, rfl⟩, cwd, answers, [], (List.append_nil _).symm, (List.append_nil _).symm, by simp⟩

theorem perform (abreast : Abreast u u' v v') (request : StoreCall) :
    Abreast u u' (v.perform request) (v'.perform request) := by
  obtain ⟨calls, here, there⟩ := abreast.calls
  refine { abreast with calls := ⟨calls ++ [request], ?_, ?_⟩ }
  · rw [Solo.perform, here, Store.after, Store.after, List.foldl_append]
    rfl
  · rw [Solo.perform, there, Store.after, Store.after, List.foldl_append]
    rfl

theorem answer (abreast : Abreast u u' v v') : v.answer = v'.answer := by
  rw [Solo.answer, abreast.answers, Solo.answer]

theorem ask (abreast : Abreast u u' v v') {prompt : Prompt} (free : prompt.asksPassword = false) :
    Abreast u u' (v.ask prompt) (v'.ask prompt) := by
  obtain ⟨shown, here, there, others⟩ := abreast.asked
  refine ⟨abreast.calls, abreast.cwd, congrArg List.tail abreast.answers, shown ++ [(prompt, v.answer)], ?_, ?_, ?_⟩
  · rw [Solo.ask, here, List.append_assoc]
  · rw [Solo.ask, there, abreast.answer, List.append_assoc]
  · intro q member
    rcases List.mem_append.mp member with before | last
    · exact others q before
    · rw [List.mem_singleton.mp last]
      exact free

theorem record (abreast : Abreast u u' v v') (event event' : Event) :
    Abreast u u' (v.record event) (v'.record event') :=
  ⟨abreast.calls, abreast.cwd, abreast.answers, abreast.asked⟩

theorem enter (abreast : Abreast u u' v v') (path : String) : Abreast u u' (v.enter path) (v'.enter path) :=
  ⟨abreast.calls, rfl, abreast.answers, abreast.asked⟩

end Solo.Abreast

namespace Program

variable {α β : Type}

/-- Whether two programs act in step, to the same result. -/
def InStep (p p' : Program α) : Prop :=
  ∀ ⦃u u' v v' : Solo⦄, Solo.Abreast u u' v v' →
    (p.play v).1 = (p'.play v').1 ∧ Solo.Abreast u u' (p.play v).2 (p'.play v').2

namespace InStep

theorem pure (a : α) : InStep (Pure.pure a) (Pure.pure a) :=
  fun _ _ _ _ abreast => ⟨rfl, abreast⟩

theorem bind {p p' : Program α} {f f' : α → Program β} (first : InStep p p') (next : ∀ a, InStep (f a) (f' a)) :
    InStep (p >>= f) (p' >>= f') := by
  intro u u' v v' abreast
  obtain ⟨result, after⟩ := first abreast
  rw [play_bind, play_bind, ← result]
  exact next _ after

theorem write (key : String) (value : Value) : InStep (Program.write key value) (Program.write key value) :=
  fun _ _ _ _ abreast => ⟨rfl, abreast.perform _⟩

theorem merge (key : String) (pairs : List (String × Value)) : InStep (Program.merge key pairs) (Program.merge key pairs) :=
  fun _ _ _ _ abreast => ⟨rfl, abreast.perform _⟩

theorem delete (key : String) : InStep (Program.delete key) (Program.delete key) :=
  fun _ _ _ _ abreast => ⟨rfl, abreast.perform _⟩

theorem record (event event' : Event) : InStep (Program.record event) (Program.record event') :=
  fun _ _ _ _ abreast => ⟨rfl, abreast.record event event'⟩

theorem changeDirectory (path : String) : InStep (Program.changeDirectory path) (Program.changeDirectory path) :=
  fun _ _ _ _ abreast => ⟨rfl, abreast.enter path⟩

theorem prompt {prompt : Prompt} (free : prompt.asksPassword = false) :
    InStep (Program.prompt prompt) (Program.prompt prompt) :=
  fun _ _ _ _ abreast => ⟨abreast.answer, abreast.ask free⟩

end InStep

/-- A program only adds to the prompts that were shown. -/
theorem asked_prefix (p : Program α) (u : Solo) : u.asked <+: (p.play u).2.asked := by
  induction p generalizing u with
  | done a => exact List.prefix_rfl
  | call request next ih => exact ih _ (u.perform request)
  | ask prompt next ih => exact (List.prefix_append ..).trans (ih _ (u.ask prompt))
  | log event next ih => exact ih (u.record event)
  | cwd next ih => exact ih _ u
  | enter path next ih => exact ih (u.enter path)

/-- The answers that a program has used up are all that it takes to play it again. -/
theorem play_given (p : Program α) (u : Solo) {given : List (Prompt × Answer)}
    (asked : (p.play u).2.asked = u.asked ++ given) :
    (p.play { u with answers := given.map (·.2) }).1 = (p.play u).1 ∧
      (p.play { u with answers := given.map (·.2) }).2.store = (p.play u).2.store ∧
      (p.play { u with answers := given.map (·.2) }).2.cwd = (p.play u).2.cwd ∧
      (p.play { u with answers := given.map (·.2) }).2.asked = (p.play u).2.asked := by
  induction p generalizing u given with
  | done a => exact ⟨rfl, rfl, rfl, rfl⟩
  | call request next ih => exact ih _ (u.perform request) asked
  | ask prompt next ih =>
    obtain ⟨later, grown⟩ := asked_prefix (next u.answer) (u.ask prompt)
    have listed : given = (prompt, u.answer) :: later := by
      have whole := grown.trans asked
      rw [Solo.ask, List.append_assoc] at whole
      exact (List.append_cancel_left whole).symm
    subst listed
    exact ih u.answer (u.ask prompt) grown.symm
  | log event next ih => exact ih (u.record event) asked
  | cwd next ih => exact ih _ u asked
  | enter path next ih => exact ih (u.enter path) asked

end Program

end TreeShell
