import TreeShell.Program

/-! # How many prompts a program shows

A program is a tree, so a bound on its prompts holds whatever it reads and however it is answered, also when others work on
the store while it waits. `Program.Shows` counts the prompts for secrets and the editors apart. Bounds add up over a sequence
(`Shows.bind`), and no dialogue exceeds them (`Shows.within`).
-/

namespace TreeShell

/-- Whether some prompts are for at most so many secrets and so many editors, and for nothing else. -/
structure Prompt.Within (secrets editors : Nat) (prompts : List Prompt) : Prop where
  secrets : prompts.countP (·.kind = .secret) ≤ secrets
  editors : prompts.countP (·.kind = .edit) ≤ editors
  kinds : ∀ p ∈ prompts, p.kind = .secret ∨ p.kind = .edit

namespace Prompt.Within

variable {secrets editors : Nat} {prompts : List Prompt}

theorem nil (secrets editors : Nat) : Within secrets editors [] :=
  ⟨Nat.zero_le _, Nat.zero_le _, List.forall_mem_nil _⟩

theorem secret {p : Prompt} (kind : p.kind = .secret) (within : Within secrets editors prompts) :
    Within (secrets + 1) editors (p :: prompts) := by
  refine ⟨?_, ?_, List.forall_mem_cons.mpr ⟨.inl kind, within.kinds⟩⟩
  · rw [List.countP_cons_of_pos (by simpa using kind)]
    exact Nat.succ_le_succ within.secrets
  · rw [List.countP_cons_of_neg (by simp [kind])]
    exact within.editors

theorem edit {p : Prompt} (kind : p.kind = .edit) (within : Within secrets editors prompts) :
    Within secrets (editors + 1) (p :: prompts) := by
  refine ⟨?_, ?_, List.forall_mem_cons.mpr ⟨.inr kind, within.kinds⟩⟩
  · rw [List.countP_cons_of_neg (by simp [kind])]
    exact within.secrets
  · rw [List.countP_cons_of_pos (by simpa using kind)]
    exact Nat.succ_le_succ within.editors

/-- There is no third kind, so the two numbers bound the length. -/
theorem length_le (within : Within secrets editors prompts) : prompts.length ≤ secrets + editors := by
  have others : prompts.countP (fun p => ¬ decide (p.kind = .secret) = true) = prompts.countP (·.kind = .edit) := by
    refine List.countP_congr fun p member => ?_
    rcases within.kinds p member with kind | kind <;> simp [kind]
  rw [List.length_eq_countP_add_countP (·.kind = .secret), others]
  exact Nat.add_le_add within.secrets within.editors

/-- Where no secret may be asked for, all prompts are editors. -/
theorem all_edit (within : Within 0 editors prompts) : ∀ p ∈ prompts, p.kind = .edit := by
  have none := List.countP_eq_zero.mp (Nat.le_zero.mp within.secrets)
  exact fun p member => (within.kinds p member).resolve_left fun secret => none p member (decide_eq_true secret)

end Prompt.Within

namespace Program

variable {α β : Type} {s e s' e' : Nat} {p : Program α} {f : α → Program β}

/-- Whether a program shows at most so many prompts for secrets and so many editors, whatever it reads and is answered. -/
inductive Shows : Nat → Nat → Program α → Prop
  | done {s e : Nat} {a : α} : Shows s e (.done a)
  | call {s e : Nat} {request : StoreCall} {k : Value → Program α} (next : ∀ v, Shows s e (k v)) : Shows s e (.call request k)
  | secret {s e : Nat} {prompt : Prompt} {k : Answer → Program α} (kind : prompt.kind = .secret)
    (next : ∀ a, Shows s e (k a)) : Shows (s + 1) e (.ask prompt k)
  | edit {s e : Nat} {prompt : Prompt} {k : Answer → Program α} (kind : prompt.kind = .edit)
    (next : ∀ a, Shows s e (k a)) : Shows s (e + 1) (.ask prompt k)
  | log {s e : Nat} {event : Event} {p : Program α} (next : Shows s e p) : Shows s e (.log event p)
  | cwd {s e : Nat} {k : String → Program α} (next : ∀ path, Shows s e (k path)) : Shows s e (.cwd k)
  | enter {s e : Nat} {path : String} {p : Program α} (next : Shows s e p) : Shows s e (.enter path p)

namespace Shows

theorem mono (shows : Shows s e p) (secrets : s ≤ s') (editors : e ≤ e') : Shows s' e' p := by
  induction shows generalizing s' e' with
  | done => exact .done
  | call _ ih => exact .call fun v => ih v secrets editors
  | secret kind _ ih =>
    obtain ⟨t, rfl⟩ := Nat.exists_eq_add_of_le' secrets
    exact .secret kind fun a => ih a (Nat.le_add_left ..) editors
  | edit kind _ ih =>
    obtain ⟨t, rfl⟩ := Nat.exists_eq_add_of_le' editors
    exact .edit kind fun a => ih a secrets (Nat.le_add_left ..)
  | log _ ih => exact .log (ih secrets editors)
  | cwd _ ih => exact .cwd fun path => ih path secrets editors
  | enter _ ih => exact .enter (ih secrets editors)

/-- A sequence shows what its parts show. -/
theorem bind (first : Shows s e p) (next : ∀ a, Shows s' e' (f a)) : Shows (s + s') (e + e') (p >>= f) := by
  induction first with
  | done => exact (next _).mono (Nat.le_add_left ..) (Nat.le_add_left ..)
  | call _ ih => exact .call ih
  | secret kind _ ih =>
    rw [Nat.add_right_comm]
    exact .secret kind ih
  | edit kind _ ih =>
    rw [Nat.add_right_comm]
    exact .edit kind ih
  | log _ ih => exact .log ih
  | cwd _ ih => exact .cwd ih
  | enter _ ih => exact .enter ih

/-- A part that shows nothing adds nothing. -/
theorem after (quiet : Shows 0 0 p) (next : ∀ a, Shows s e (f a)) : Shows s e (p >>= f) := by
  have both := quiet.bind next
  rwa [Nat.zero_add, Nat.zero_add] at both

/-- Nor does one at the end. -/
theorem before (first : Shows s e p) (quiet : ∀ a, Shows 0 0 (f a)) : Shows s e (p >>= f) :=
  first.bind quiet

/-- No dialogue shows more. -/
theorem within (shows : Shows s e p) (answers : List Answer) (m : Machine) :
    Prompt.Within s e (p.converse answers m).prompts := by
  induction shows generalizing answers m with
  | done => exact .nil ..
  | @call s e request k _ ih =>
    rw [converse]
    rcases m.world.backend.call request with ⟨error | v, backend⟩
    · exact .nil ..
    · exact ih v answers _
  | secret kind _ ih => exact .secret kind (ih _ _ m)
  | edit kind _ ih => exact .edit kind (ih _ _ m)
  | log _ ih => exact ih answers _
  | cwd _ ih => exact ih _ answers m
  | enter _ ih => exact ih answers _

end Shows

end Program

end TreeShell
